import ArenaMemory.Proofs.Region.Representation

namespace ArenaMemory

variable {σ : Type}

namespace Word

def checkedSub (a b : Word) : Option Word :=
  if b ≤ a then some (a - b) else none

theorem checkedSub_eq {a b : Word} (h : b.toNat ≤ a.toNat) : checkedSub a b = some (a - b) :=
  if_pos (UInt64.le_iff_toNat_le.2 h)

end Word

namespace Chunk

variable {chunk : Chunk} {minAlign : Alignment} {layout : Layout} {addr start stop need : Word}

def checkedNeed? (size align : Word) : Option (Option Word) :=
  (Word.checkedSub align 1).map fun mask => (Word.checkedAdd size mask).map (· &&& ~~~mask)

def checkedCut? (start stop need : Word) : Option (Option Word) := do
  let room ← Word.checkedSub stop start
  if room < need then some none else (Word.checkedSub stop need).map some

def checkedPlace? (chunk : Chunk) (minAlign : Alignment) (layout : Layout) :
    Option (Option Word) :=
  if layout.align.bytes ≤ minAlign.bytes then do
    match ← checkedNeed? layout.size minAlign.bytes with
    | none => some none
    | some need => checkedCut? chunk.start chunk.bump need
  else do
    match ← checkedNeed? layout.size layout.align.bytes with
    | none => some none
    | some need =>
      let stop := Word.alignDown chunk.bump layout.align.bytes
      if stop < chunk.start then some none else checkedCut? chunk.start stop need

/-- The carving with every difference checked, those included that move the bump pointer down by its
distance from the block. The outer `none` is a difference that wraps. -/
def checkedCarve? (chunk : Chunk) (minAlign : Alignment) (layout : Layout) :
    Option (Option Word) := do
  match ← chunk.checkedPlace? minAlign layout with
  | none => some none
  | some addr =>
    let distance ← Word.checkedSub chunk.bump addr
    (Word.checkedSub chunk.bump distance).map some

theorem checkedNeed?_eq (size : Word) (align : Alignment) :
    checkedNeed? size align.bytes = some (Word.checkedAlignUp size align.bytes) := by
  have hone : (1 : Word).toNat ≤ align.bytes.toNat := align.toNat_pos
  rw [checkedNeed?, Word.checkedSub_eq hone]
  rfl

theorem checkedCut?_eq (h : start.toNat ≤ stop.toNat) :
    checkedCut? start stop need =
      some (if stop - start < need then none else some (stop - need)) := by
  have hsub := UInt64.toNat_sub_of_le stop start (UInt64.le_iff_toNat_le.2 h)
  rw [checkedCut?, Word.checkedSub_eq h]
  simp only [Option.bind_eq_bind, Option.bind_some]
  split
  · rfl
  next hroom =>
    rw [UInt64.lt_iff_toNat_lt, hsub] at hroom
    rw [Word.checkedSub_eq (by omega)]
    rfl

theorem carve?_le (hstart : chunk.start.toNat ≤ chunk.bump.toNat)
    (h : chunk.carve? minAlign layout = some addr) : addr.toNat ≤ chunk.bump.toNat := by
  rw [carve?] at h
  split at h
  · cases hneed : Word.checkedAlignUp layout.size minAlign.bytes with
    | none => simp [hneed] at h
    | some need =>
      rw [hneed] at h
      obtain ⟨-, haddr⟩ := (cut_eq_some hstart).1 h
      omega
  · cases hneed : Word.checkedAlignUp layout.size layout.align.bytes with
    | none => simp [hneed] at h
    | some need =>
      have hdown := roundDown_le (n := chunk.bump.toNat) (a := layout.align.bytes.toNat)
      rw [← Word.toNat_alignDown] at hdown
      simp only [hneed] at h
      split at h
      · cases h
      next hge =>
        rw [UInt64.lt_iff_toNat_lt] at hge
        obtain ⟨-, haddr⟩ := (cut_eq_some (Nat.le_of_not_lt hge)).1 h
        omega

theorem checkedPlace?_eq (hstart : chunk.start.toNat ≤ chunk.bump.toNat) :
    chunk.checkedPlace? minAlign layout = some (chunk.carve? minAlign layout) := by
  rw [checkedPlace?, carve?]
  simp only [checkedNeed?_eq, Option.bind_eq_bind, Option.bind_some]
  split
  · cases Word.checkedAlignUp layout.size minAlign.bytes with
    | none => rfl
    | some need => exact checkedCut?_eq hstart
  · cases Word.checkedAlignUp layout.size layout.align.bytes with
    | none => rfl
    | some need =>
      dsimp only
      split
      · rfl
      next hge =>
        rw [UInt64.lt_iff_toNat_lt] at hge
        exact checkedCut?_eq (Nat.le_of_not_lt hge)

/-- No difference in the carving wraps, neither for a chunk nor for the sentinel. -/
theorem checkedCarve?_eq (hstart : chunk.start.toNat ≤ chunk.bump.toNat) :
    chunk.checkedCarve? minAlign layout = some (chunk.carve? minAlign layout) := by
  rw [checkedCarve?, checkedPlace?_eq hstart]
  cases hc : chunk.carve? minAlign layout with
  | none => rfl
  | some addr =>
    have hle := carve?_le hstart hc
    have hdistance := UInt64.toNat_sub_of_le _ _ (UInt64.le_iff_toNat_le.2 hle)
    have hback : chunk.bump - (chunk.bump - addr) = addr := by grind
    simp only [Option.bind_eq_bind, Option.bind_some, Word.checkedSub_eq hle]
    rw [Word.checkedSub_eq (by omega), hback]
    rfl

end Chunk

/-- The bytes of a chunk that a block takes whose own alignment raises nothing. -/
def Grant.rounded (minAlign : Word) (grant : Grant) : Nat :=
  roundUp grant.layout.size.toNat minAlign.toNat

namespace Region

variable {backing : Allocator σ} {region region' : Region} {layout : Layout} {addr minAlign : Word}
  {start machine machine' : Machine σ} {home : Option Word} {blocks served : List Grant}

/-- The bump pointer, rounded down to the stricter alignment, less the size rounded up to it.
Without room it lies below the chunk, and may be negative. -/
def target (region : Region) (layout : Layout) : Int :=
  (roundDown region.current.bump.toNat (max layout.align.bytes region.minAlign.bytes).toNat : Int) -
    roundUp layout.size.toNat (max layout.align.bytes region.minAlign.bytes).toNat

theorem target_lt (region : Region) (hpos : 0 < layout.size.toNat) :
    region.target layout < region.current.bump.toNat := by
  have hdown := roundDown_le (n := region.current.bump.toNat)
    (a := (layout.align.strictest region.minAlign).bytes.toNat)
  have hup := roundUp_pos (layout.align.strictest region.minAlign).toNat_pos hpos
  rw [target, Alignment.max_bytes]
  omega

/-- Both branches of the carving, at once, from a chunk or from the sentinel. -/
theorem carve?_eq_target (valid : region.Valid) (hpos : 0 < layout.size.toNat) :
    region.current.carve? region.minAlign layout = some addr ↔
      (region.current.start.toNat : Int) ≤ region.target layout ∧
        (addr.toNat : Int) = region.target layout := by
  cases hchunks : region.chunks with
  | nil =>
    have hsentinel := current_of_nil hchunks
    have hempty : region.current.start = region.current.bump := by rw [hsentinel]; rfl
    have hlt := region.target_lt hpos
    rw [hempty, hsentinel, Chunk.carve?_sentinel _ hpos, ← hsentinel]
    simp only [reduceCtorEq, false_iff]
    omega
  | cons newest older =>
    have hnewest := current_of_cons hchunks
    have hvalid := valid.chunks newest (by simp [hchunks])
    rw [target, Alignment.max_bytes, hnewest,
      Chunk.carve?_eq_some hvalid.start_le_bump hvalid.bump_aligned]
    omega

def lowered (region : Region) (addr : Word) : Region :=
  { region with chunks := { region.current with bump := addr } :: region.chunks.tail }

theorem bump?_eq_some (hpos : 0 < layout.size.toNat) :
    region.bump? layout = some (addr, region') ↔
      region.current.carve? region.minAlign layout = some addr ∧ region' = region.lowered addr := by
  rw [bump?]
  cases hc : region.current.carve? region.minAlign layout with
  | none => simp
  | some place =>
    have hset : region.setCurrent { region.current with bump := place } = region.lowered place := by
      obtain ⟨newest, older, hchunks, -⟩ := cons_of_carve? hpos hc
      rw [setCurrent_of_cons hchunks, lowered, hchunks, List.tail_cons]
    simp only [Option.some.injEq, Prod.mk.injEq, hset]
    constructor
    · rintro ⟨rfl, rfl⟩
      exact ⟨rfl, rfl⟩
    · rintro ⟨rfl, rfl⟩
      exact ⟨rfl, rfl⟩

theorem carve?_eq_none (valid : region.Valid) (hpos : 0 < layout.size.toNat) :
    region.current.carve? region.minAlign layout = none ↔
      region.target layout < region.current.start.toNat := by
  have hlt := region.target_lt hpos
  have hb := region.current.bump.toNat_lt
  rw [Option.eq_none_iff_forall_ne_some]
  constructor
  · intro hnone
    by_contra hroom
    have haddr := UInt64.toNat_ofNat_of_lt' (n := (region.target layout).toNat)
      (by simp only [UInt64.size]; omega)
    exact hnone (UInt64.ofNat (region.target layout).toNat)
      ((carve?_eq_target valid hpos).2 ⟨by omega, by omega⟩)
  · intro hroom addr hc
    have := ((carve?_eq_target valid hpos).1 hc).1
    omega

/-- Blocks of positive size, aligned no stricter than the region itself, that the newest chunk
serves one after another. -/
inductive Streak (backing : Allocator σ) : Region → List Grant → Region → Prop where
  | nil {region : Region} : Streak backing region [] region
  | cons {region region' region'' : Region} {layout : Layout} {addr : Word}
      {machine machine' : Machine σ} {served : List Grant} :
      0 < layout.size.toNat → layout.align.bytes ≤ region.minAlign.bytes →
      region.alloc backing layout machine = (some addr, region', machine') →
      region'.chunks.length = region.chunks.length → Streak backing region' served region'' →
      Streak backing region (⟨addr, layout⟩ :: served) region''

theorem alloc_in_place (valid : region.Valid) (hpos : 0 < layout.size.toNat)
    (halign : layout.align.bytes ≤ region.minAlign.bytes)
    (ha : region.alloc backing layout machine = (some addr, region', machine'))
    (hlength : region'.chunks.length = region.chunks.length) :
    region' = region.lowered addr ∧ region'.Valid ∧ region'.current.start = region.current.start ∧
      region'.current.bump = addr ∧
      addr.toNat + roundUp layout.size.toNat region.minAlign.bytes.toNat =
        region.current.bump.toNat := by
  have hne : layout.size ≠ 0 := UInt64.pos_iff_ne_zero.1 hpos
  have hbump : region.bump? layout = some (addr, region') := by
    have ho := ha ▸ alloc_outcome backing region layout machine
    cases ho with
    | empty hsize => exact absurd hsize hne
    | carved hsize hc => rw [bump?, hc]
    | slow hsize hc hg =>
      cases hg with
      | served => exact absurd hlength (Nat.succ_ne_self _)
  obtain ⟨hc, rfl⟩ := (bump?_eq_some hpos).1 hbump
  obtain ⟨hroom, haddr⟩ := (carve?_eq_target valid hpos).1 hc
  obtain ⟨newest, older, hchunks, hcarved⟩ := cons_of_carve? hpos hc
  have hnewest := current_of_cons hchunks
  have hdvd := (valid.chunks newest (by simp [hchunks])).bump_aligned
  have hserved := served_carve valid hchunks hpos hcarved
  have hmax : max layout.align.bytes region.minAlign.bytes = region.minAlign.bytes := if_pos halign
  rw [target, hmax, hnewest, roundDown_eq hdvd] at haddr
  refine ⟨rfl, ?_, rfl, rfl, by rw [hnewest]; omega⟩
  rw [lowered, hchunks, hnewest]
  exact hserved.valid

/-- Each block of a streak ends where the one before it starts, up to the rounding of its size, and
together they take from the free bytes what their rounded sizes add up to. -/
theorem Streak.descends (valid : region.Valid) (streak : Streak backing region served region') :
    served.IsChain (fun earlier later =>
        later.addr.toNat + later.rounded region.minAlign.bytes = earlier.addr.toNat) ∧
      (∀ first ∈ served.head?,
        first.addr.toNat + first.rounded region.minAlign.bytes = region.current.bump.toNat) ∧
      region'.stats.chunkCount = region.stats.chunkCount ∧
      region'.stats.remaining.toNat + (served.map (·.rounded region.minAlign.bytes)).sum =
        region.stats.remaining.toNat := by
  induction streak with
  | nil => exact ⟨.nil, by simp, rfl, by simp⟩
  | @cons region middle region'' layout addr machine machine' served hpos halign ha hlength streak
      ih =>
    obtain ⟨hlowered, hvalid, hstart, hbump, haddr⟩ := alloc_in_place valid hpos halign ha hlength
    have hmin : middle.minAlign = region.minAlign := by rw [hlowered]; rfl
    obtain ⟨hchain, hfirst, hcount, hsum⟩ := ih hvalid
    have hremaining := valid.remaining
    have hmiddle := hvalid.remaining
    rw [hmin] at hchain hfirst hsum
    rw [hbump] at hfirst hmiddle
    rw [hstart] at hmiddle
    refine ⟨?_, ?_, hcount.trans hlength, ?_⟩
    · cases served with
      | nil => exact .singleton _
      | cons second served => exact .cons_cons (hfirst second rfl) hchain
    · intro first he
      obtain rfl := Option.some.inj he
      exact haddr
    · rw [List.map_cons, List.sum_cons]
      simp only [Grant.rounded] at hsum ⊢
      omega

/-- The newest chunk serves a request at its target, computed over the integers, exactly where that
is not below its start. Blocks that it serves one after another lie directly below each other. -/
theorem carving_formula (placement : backing.Placement)
    (hstart : placement.shared.holds 0 start.store)
    (run : Run backing (fun mine _ machine' => placement.shared.holds mine machine'.store) minAlign
      start home blocks region machine) :
    (∀ layout, 0 < layout.size.toNat →
      (∀ addr region', region.bump? layout = some (addr, region') ↔
        (region.current.start.toNat : Int) ≤ region.target layout ∧
          (addr.toNat : Int) = region.target layout ∧ region' = region.lowered addr) ∧
      (region.bump? layout = none ↔ region.target layout < region.current.start.toNat) ∧
      region.current.checkedCarve? region.minAlign layout =
        some (region.current.carve? region.minAlign layout)) ∧
    ∀ served region', Streak backing region served region' →
      served.IsChain (fun earlier later =>
        later.addr.toNat + later.rounded minAlign = earlier.addr.toNat) ∧
      (∀ first ∈ served.head?,
        first.addr.toNat + first.rounded minAlign = region.current.bump.toNat) ∧
      region'.stats.chunkCount = region.stats.chunkCount ∧
      region'.stats.remaining.toNat + (served.map (·.rounded minAlign)).sum =
        region.stats.remaining.toNat := by
  have safe := run.safe placement hstart
  have valid := safe.valid
  refine ⟨fun layout hpos => ⟨fun addr region' => ?_, ?_, Chunk.checkedCarve?_eq valid.start_le_bump⟩,
    fun served region' streak => safe.minAlign_eq ▸ streak.descends valid⟩
  · rw [bump?_eq_some hpos, carve?_eq_target valid hpos, and_assoc]
  · rw [bump?_eq_none, carve?_eq_none valid hpos]

theorem carving_formula_streak : ∃ region region' : Region, ∃ served : List Grant,
    served = [⟨0x1000000f60, 3, .one⟩, ⟨0x1000000f48, 20, .four⟩] ∧
      region.target ⟨100, .sixtyFour⟩ = 0x1000000ec0 ∧
      region.bump? ⟨100, .sixtyFour⟩ = some (0x1000000ec0, region.lowered 0x1000000ec0) ∧
      region.bump? ⟨5000, .one⟩ = none ∧
      served.IsChain (fun earlier later =>
        later.addr.toNat + later.rounded 8 = earlier.addr.toNat) ∧
      region'.stats.remaining.toNat + 32 = region.stats.remaining.toNat := by
  have hrun := run_window.perform (.alloc ⟨100, .one⟩) rfl
  obtain ⟨hone, hmany⟩ := carving_formula Platform.plainWindowContract.toPlacement holds_window hrun
  obtain ⟨hserved, -, -⟩ := hone ⟨100, .sixtyFour⟩ (by decide)
  obtain ⟨-, hnone, -⟩ := hone ⟨5000, .one⟩ (by decide)
  obtain ⟨hchain, -, -, hsum⟩ := hmany _ _ (.cons (by decide) (by decide)
    (show alloc Platform.plainWindow _ ⟨3, .one⟩ { store := ⟨.ofCap 65536, {}⟩ } = _ from rfl) rfl
    (.cons (by decide) (by decide)
      (show alloc Platform.plainWindow _ ⟨20, .four⟩ { store := ⟨.ofCap 65536, {}⟩ } = _ from rfl) rfl
      .nil))
  exact ⟨_, _, _, by decide, by decide, (hserved _ _).2 ⟨by decide, by decide, rfl⟩,
    hnone.2 (by decide), hchain, hsum⟩

end Region

end ArenaMemory
