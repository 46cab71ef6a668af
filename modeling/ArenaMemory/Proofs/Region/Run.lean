import ArenaMemory.World.Basic
import ArenaMemory.Proofs.Region.Copy

namespace ArenaMemory

variable {σ : Type}

namespace Region

inductive Operation where
  | alloc (layout : Layout)
  | allocZeroed (layout : Layout)
  | allocCopy (bytes : List UInt8) (align : Alignment)
  /-- A copy of the bytes before the first zero, with a zero behind them. -/
  | allocCString (bytes : List UInt8)
  | dup (bytes : List UInt8)
  | allocText (text : String)
  | allocValues (element : Layout) (values : List Nat)
  | realloc (block : Option Word) (oldSize : Word) (layout : Layout)
  | setLimit (limit : Option Word)
  | reset
  | deinit

namespace Operation

def layout? : Operation → Option Layout
  | alloc layout | allocZeroed layout | realloc _ _ layout => some layout
  | allocCopy bytes align => Layout.ofCount? bytes.length align
  | allocCString bytes => Layout.ofCount? ((bytes.takeWhile (· ≠ 0)).length + 1) .one
  | dup bytes => Layout.ofCount? (bytes.length + 1) .one
  | allocText text => Layout.ofCount? text.toUTF8.toList.length .one
  | allocValues element values => element.array values.length
  | setLimit _ | reset | deinit => none

/-- The layout that the region is asked for. For a block that is to be moved to an empty size it is
not asked. -/
def request? : Operation → Option Layout
  | realloc (some _) _ layout => if layout.size = 0 then none else some layout
  | op => op.layout?

def forgets : Operation → Bool
  | reset | deinit => true
  | _ => false

theorem request?_of_pos {op : Operation} {layout : Layout} (h : op.layout? = some layout)
    (hpos : 0 < layout.size.toNat) : op.request? = some layout := by
  cases op with
  | realloc block oldSize asked =>
    obtain rfl := Option.some.inj h
    cases block with
    | none => rfl
    | some old => exact if_neg (UInt64.pos_iff_ne_zero.1 hpos)
  | _ => exact h

/-- The blocks that were handed out since the last reset or deinit, newest first. -/
def blocks (op : Operation) (result : Option Word) (blocks : List Grant) : List Grant :=
  if op.forgets then []
  else
    match op.layout?, result with
    | some layout, some addr => ⟨addr, layout⟩ :: blocks
    | _, _ => blocks

theorem blocks_none {op : Operation} {blocks : List Grant} (h : op.forgets = false) :
    op.blocks none blocks = blocks := by
  simp [Operation.blocks, h]

theorem blocks_some {op : Operation} {blocks : List Grant} {layout : Layout} {addr : Word}
    (h : op.forgets = false) (hlayout : op.layout? = some layout) :
    op.blocks (some addr) blocks = ⟨addr, layout⟩ :: blocks := by
  simp [Operation.blocks, h, hlayout]

def perform (op : Operation) (backing : Allocator σ) (region : Region) (machine : Machine σ) :
    Option Word × Region × Machine σ :=
  match op with
  | alloc layout => region.alloc backing layout machine
  | allocZeroed layout => region.allocZeroed backing layout machine
  | allocCopy bytes align => region.allocCopy backing bytes align machine
  | allocCString bytes => region.allocCopy backing (bytes.takeWhile (· ≠ 0) ++ [0]) .one machine
  | dup bytes => region.dup backing bytes machine
  | allocText text => region.allocCopy backing text.toUTF8.toList .one machine
  | allocValues element values => region.allocValues backing element values machine
  | realloc block oldSize layout => region.realloc backing block oldSize layout machine
  | setLimit limit => (none, region.setLimit limit, machine)
  | reset => (none, region.reset backing machine)
  | deinit => (none, region.deinit backing machine)

end Operation

/-- Only bytes of the block that answers a request may differ between the memories: those of blocks
that it is apart from are the same. -/
def Fills (result : Option Word) (layout : Layout) (memory memory' : Memory) : Prop :=
  ∀ out, (∀ addr, result = some addr → 0 < layout.size.toNat → Grant.Fresh out ⟨addr, layout⟩) →
    AgreeOn out memory memory'

theorem Fills.refl (result : Option Word) (layout : Layout) (memory : Memory) :
    Fills result layout memory memory :=
  fun out _ => .refl out memory

theorem fills_write {addr : Word} {layout : Layout} {memory : Memory} {bytes : List UInt8}
    (hlen : bytes.length ≤ layout.size.toNat) :
    Fills (some addr) layout memory (memory.write addr bytes) :=
  fun _ hf => .fill (g := ⟨addr, layout⟩) (hf addr rfl) hlen

/-- How an operation ends. The bytes written into a new block are left open. -/
inductive Performed (backing : Allocator σ) (region : Region) (machine : Machine σ) :
    Operation → Option Word × Region × Machine σ → Prop where
  | declined {op} : op.forgets = false → Performed backing region machine op (none, region, machine)
  | requested {op layout result region' machine'} (memory : Memory) : op.forgets = false →
      op.layout? = some layout → region.alloc backing layout machine = (result, region', machine') →
      Fills result layout machine'.memory memory →
      Performed backing region machine op (result, region', { machine' with memory })
  | limited (limit) :
      Performed backing region machine (.setLimit limit) (none, region.setLimit limit, machine)
  | reset {region' machine'} : region.reset backing machine = (region', machine') →
      Performed backing region machine .reset (none, region', machine')
  | deinit {region' machine'} : region.deinit backing machine = (region', machine') →
      Performed backing region machine .deinit (none, region', machine')

theorem length_littleEndian (width value : Nat) : (littleEndian width value).length = width := by
  simp [littleEndian]

theorem performed_copy {backing : Allocator σ} {region : Region} {machine : Machine σ}
    {op : Operation} {bytes : List UInt8} {align : Alignment} (hop : op.forgets = false)
    (hlayout : op.layout? = Layout.ofCount? bytes.length align) :
    Performed backing region machine op (region.allocCopy backing bytes align machine) := by
  have hcopying := copying backing region bytes align machine
  generalize region.allocCopy backing bytes align machine = out at hcopying
  cases hcopying with
  | uncountable hcount => exact .declined hop
  | refused hcount ha => exact .requested _ hop (hlayout.trans hcount) ha (.refl _ _ _)
  | served hcount ha =>
    have hsize := (Layout.ofCount?_eq_some.1 hcount).1
    exact .requested _ hop (hlayout.trans hcount) ha (fills_write (Nat.le_of_eq hsize.symm))

theorem performed (op : Operation) (backing : Allocator σ) (region : Region) (machine : Machine σ) :
    Performed backing region machine op (op.perform backing region machine) := by
  cases op with
  | alloc layout =>
    rcases ha : region.alloc backing layout machine with ⟨result, region', machine'⟩
    simp only [Operation.perform, ha]
    exact .requested _ rfl rfl ha (.refl _ _ _)
  | allocZeroed layout =>
    simp only [Operation.perform, allocZeroed]
    rcases ha : region.alloc backing layout machine with ⟨_ | addr, region', machine'⟩
    · exact .requested _ rfl rfl ha (.refl _ _ _)
    · exact .requested _ rfl rfl ha fun _ hf => .clear (g := ⟨addr, layout⟩) (hf addr rfl)
  | allocCopy bytes align => exact performed_copy rfl rfl
  | allocCString bytes => exact performed_copy rfl (by rw [List.length_append]; rfl)
  | dup bytes => exact performed_copy rfl (by rw [List.length_append]; rfl)
  | allocText text => exact performed_copy rfl rfl
  | allocValues element values =>
    refine performed_copy rfl ?_
    simp [Operation.layout?, Layout.array, List.length_flatMap, length_littleEndian, Nat.mul_comm]
  | realloc block oldSize layout =>
    simp only [Operation.perform, realloc]
    cases block with
    | none =>
      rcases ha : region.alloc backing layout machine with ⟨result, region', machine'⟩
      exact .requested _ rfl rfl ha (.refl _ _ _)
    | some old =>
      dsimp only
      split
      · exact .declined rfl
      · rcases ha : region.alloc backing layout machine with ⟨_ | addr, region', machine'⟩
        · exact .requested _ rfl rfl ha (.refl _ _ _)
        · refine .requested _ rfl rfl ha (fills_write ?_)
          rw [Memory.length_read, Word.toNat_min]
          exact Nat.min_le_right _ _
  | setLimit limit => exact .limited limit
  | reset => exact .reset rfl
  | deinit => exact .deinit rfl

theorem perform_of_request {backing : Allocator σ} {region region' : Region}
    {machine machine' : Machine σ} {op : Operation} {layout : Layout} {result : Option Word}
    (hop : op.request? = some layout)
    (ha : region.alloc backing layout machine = (result, region', machine')) :
    ∃ memory, op.perform backing region machine = (result, region', { machine' with memory }) ∧
      (result = none → memory = machine'.memory) := by
  cases op with
  | alloc | allocZeroed =>
    obtain rfl := Option.some.inj hop
    cases result with
    | none =>
      simp only [Operation.perform, allocZeroed, ha]
      exact ⟨_, rfl, fun _ => rfl⟩
    | some addr =>
      simp only [Operation.perform, allocZeroed, ha]
      exact ⟨_, rfl, by simp⟩
  | allocCopy bytes align => exact allocCopy_of_alloc hop ha
  | allocCString bytes | dup bytes =>
    refine allocCopy_of_alloc ?_ ha
    rw [List.length_append]
    exact hop
  | allocText text => exact allocCopy_of_alloc hop ha
  | allocValues element values =>
    refine allocCopy_of_alloc ?_ ha
    rw [← hop]
    simp [Operation.request?, Operation.layout?, Layout.array, List.length_flatMap,
      length_littleEndian, Nat.mul_comm]
  | realloc block oldSize asked =>
    cases block with
    | none =>
      obtain rfl := Option.some.inj hop
      exact ⟨_, ha, fun _ => rfl⟩
    | some old =>
      rw [Operation.request?] at hop
      split at hop
      · cases hop
      next hsize =>
        obtain rfl := Option.some.inj hop
        simp only [Operation.perform, realloc, if_neg hsize, ha]
        cases result with
        | none => exact ⟨_, rfl, fun _ => rfl⟩
        | some addr => exact ⟨_, rfl, by simp⟩
  | setLimit | reset | deinit => cases hop

theorem alloc_of_perform {backing : Allocator σ} {region region' : Region}
    {machine machine' : Machine σ} {op : Operation} {layout : Layout} {result : Option Word}
    (hop : op.request? = some layout)
    (hp : op.perform backing region machine = (result, region', machine')) :
    ∃ served memory, region.alloc backing layout machine = (result, region', served) ∧
      machine' = { served with memory } := by
  rcases ha : region.alloc backing layout machine with ⟨answer, grown, served⟩
  obtain ⟨memory, hasked, -⟩ := perform_of_request hop ha
  obtain ⟨rfl, hrest⟩ := Prod.mk.inj (hp.symm.trans hasked)
  obtain ⟨rfl, rfl⟩ := Prod.mk.inj hrest
  exact ⟨served, memory, rfl, rfl⟩

theorem perform_of_no_request {backing : Allocator σ} {region : Region} {machine : Machine σ}
    {op : Operation} (hop : op.request? = none) : (op.perform backing region machine).1 = none := by
  cases op with
  | alloc | allocZeroed => cases hop
  | allocCopy | allocText => exact allocCopy_of_uncountable hop
  | allocCString | dup =>
    refine allocCopy_of_uncountable ?_
    rw [List.length_append]
    exact hop
  | allocValues element values =>
    refine allocCopy_of_uncountable ?_
    rw [← hop]
    simp [Operation.request?, Operation.layout?, Layout.array, List.length_flatMap,
      length_littleEndian, Nat.mul_comm]
  | realloc block oldSize asked =>
    cases block with
    | none => cases hop
    | some old =>
      rw [Operation.request?] at hop
      split at hop
      next hsize => simp only [Operation.perform, realloc, if_pos hsize]
      · cases hop
  | setLimit | reset | deinit => rfl

def drop (backing : Allocator σ) (region : Region) (home : Option Word) (machine : Machine σ) :
    Machine σ :=
  backing.free home Object.regionLayout (region.deinit backing machine).2

/-- That is how a world drops a region. -/
theorem release_region {name : String} {origin : Origin BaseName} {region : Region}
    {home : Option Word} (machine : Machine Objects) :
    World.release ⟨name, origin, .region region home⟩ machine =
      region.drop (World.allocator origin) home machine := by
  cases home <;> rfl

/-- The runs of a region, with its storage and the blocks handed out since the last reset or deinit;
`others` says what may happen elsewhere in between. -/
inductive Run (backing : Allocator σ) (others : Multiset Grant → Machine σ → Machine σ → Prop)
    (minAlign : Word) (start : Machine σ) :
    Option Word → List Grant → Region → Machine σ → Prop where
  | create {anchor region} : Region.create anchor minAlign = .ok region →
      Run backing others minAlign start none [] region start
  | box {anchor region home machine} : Region.create anchor minAlign = .ok region →
      backing.box Object.regionLayout (fun _ memory => memory) start = (some home, machine) →
      Run backing others minAlign start (some home) [] region machine
  | perform {home blocks region machine result region' machine'} (op : Operation) :
      Run backing others minAlign start home blocks region machine →
      op.perform backing region machine = (result, region', machine') →
      Run backing others minAlign start home (op.blocks result blocks) region' machine'
  | others {home blocks region machine machine'} :
      Run backing others minAlign start home blocks region machine →
      others (region.grants + granted home Object.regionLayout) machine machine' →
      Run backing others minAlign start home blocks region machine'

variable {backing : Allocator σ} {others : Multiset Grant → Machine σ → Machine σ → Prop}
  {minAlign : Word} {start machine machine' : Machine σ} {home result : Option Word}
  {blocks : List Grant} {region region' : Region} {op : Operation} {rest : Multiset Grant}

theorem eq_of_create {anchor : Word} (h : Region.create anchor minAlign = .ok region) :
    ∃ align hle, Alignment.ofWord? minAlign = some align ∧ region = ⟨anchor, align, hle, none, []⟩ := by
  rw [create] at h
  split at h
  · cases h
  next align halign =>
    split at h
    next hle => exact ⟨align, hle, halign, (Except.ok.inj h).symm⟩
    · cases h

theorem chunks_of_create {anchor : Word} (h : Region.create anchor minAlign = .ok region) :
    region.chunks = [] := by
  obtain ⟨align, hle, -, rfl⟩ := eq_of_create h
  rfl

theorem minAlign_of_create {anchor : Word} (h : Region.create anchor minAlign = .ok region) :
    region.minAlign.bytes = minAlign := by
  obtain ⟨align, hle, halign, rfl⟩ := eq_of_create h
  rw [Alignment.ofWord?] at halign
  split at halign
  · exact (congrArg Alignment.bytes (Option.some.inj halign)).symm
  · cases halign

theorem grants_of_chunks_nil (h : region.chunks = []) : region.grants = 0 := by
  rw [grants, h]
  rfl

/-- An operation adds the grants of the chunks that the region obtains and takes away those of the
chunks that it gives back, and no other. -/
theorem perform_holds (ledger : backing.Ledger)
    (h : ledger.holds (region.grants + rest) machine.store)
    (hp : op.perform backing region machine = (result, region', machine')) :
    ledger.holds (region'.grants + rest) machine'.store := by
  have hperformed := hp ▸ performed op backing region machine
  cases hperformed with
  | declined | limited => exact h
  | requested _ hop hlayout ha =>
    have hserved := alloc_holds ledger h ha
    exact hserved
  | reset hr => exact reset_holds ledger h hr
  | deinit hd =>
    obtain ⟨rfl, rfl⟩ := Prod.mk.inj hd
    have hrest := deinit_holds ledger h
    have hnone : ({ region with chunks := [] } : Region).grants = 0 := rfl
    rwa [hnone, zero_add]

theorem perform_kept {ledger : backing.Ledger} {kept : Multiset Grant} (keeps : ledger.Keeps kept)
    (hop : op.forgets = true) (h : ledger.holds (region.grants + rest) machine.store)
    (hp : op.perform backing region machine = (result, region', machine')) :
    AgreeOn kept machine.memory machine'.memory := by
  have hperformed := hp ▸ performed op backing region machine
  cases hperformed with
  | declined hnot | requested _ hnot => exact absurd hop (by simp [hnot])
  | limited => exact absurd hop (by simp [Operation.forgets])
  | reset hr => exact reset_kept keeps h hr
  | deinit hd =>
    obtain ⟨rfl, rfl⟩ := Prod.mk.inj hd
    exact deinit_kept keeps h

theorem drop_holds (ledger : backing.Ledger)
    (h : ledger.holds (region.grants + (granted home Object.regionLayout + rest)) machine.store) :
    ledger.holds rest (region.drop backing home machine).store :=
  ledger.free (deinit_holds ledger h)

theorem drop_kept {ledger : backing.Ledger} {kept : Multiset Grant} (keeps : ledger.Keeps kept)
    (h : ledger.holds (region.grants + (granted home Object.regionLayout + rest)) machine.store) :
    AgreeOn kept machine.memory (region.drop backing home machine).memory :=
  (deinit_kept keeps h).trans (keeps.free (deinit_holds ledger h))

theorem Run.holds (ledger : backing.Ledger) (hstart : ledger.holds 0 start.store)
    (hothers : ∀ {mine machine machine'}, ledger.holds mine machine.store →
      others mine machine machine' → ledger.holds mine machine'.store)
    (run : Run backing others minAlign start home blocks region machine) :
    ledger.holds (region.grants + granted home Object.regionLayout) machine.store := by
  induction run with
  | create hc =>
    rw [grants_of_chunks_nil (chunks_of_create hc), granted_none, zero_add]
    exact hstart
  | box hc hb =>
    rw [grants_of_chunks_nil (chunks_of_create hc), zero_add, ← add_zero (granted _ _)]
    exact ledger.box hstart hb
  | perform op run hp ih => exact perform_holds ledger ih hp
  | others run ho ih => exact hothers ih ho

end Region

end ArenaMemory
