import ArenaMemory.Proofs.RunFrom
import ArenaMemory.Proofs.Allocator.Relocation
import ArenaMemory.Proofs.Region.Hosting
import ArenaMemory.Proofs.Region.Refusal

namespace ArenaMemory

variable {σ : Type}

namespace Region

inductive Reallocating (backing : Allocator σ) (region : Region) (old oldSize : Word)
    (layout : Layout) (machine : Machine σ) : Option Word × Region × Machine σ → Prop where
  | refused {region' machine'} :
      region.alloc backing layout machine = (none, region', machine') →
      Reallocating backing region old oldSize layout machine (none, region', machine')
  | copied {addr region' served} :
      region.alloc backing layout machine = (some addr, region', served) →
      Reallocating backing region old oldSize layout machine
        (some addr, region', served.mapMemory (·.copy old addr (min oldSize layout.size).toNat))

theorem reallocating (backing : Allocator σ) (region : Region) (old oldSize : Word)
    {layout : Layout} (machine : Machine σ) (hpos : 0 < layout.size.toNat) :
    Reallocating backing region old oldSize layout machine
      (region.realloc backing (some old) oldSize layout machine) := by
  have hne : layout.size ≠ 0 := UInt64.pos_iff_ne_zero.1 hpos
  rw [realloc, if_neg hne]
  rcases ha : region.alloc backing layout machine with ⟨_ | addr, region', served⟩
  · exact .refused ha
  · exact .copied ha

variable {backing : Allocator σ} {region region' : Region} {layout : Layout}
  {addr oldSize minAlign : Word} {block : Option Word} {blocks : List Grant} {memory : Memory}
  {machine machine' : Machine σ} {result home : Option Word} {rest out : Multiset Grant}
  {g : Grant} {op : Operation}

/-- What moving a block to a layout that is not empty leaves: the region as it was, or a fresh block
with the bytes that both have room for. -/
structure Moves {backing : Allocator σ} (contract : backing.Contract) (blocks : List Grant)
    (block : Option Word) (oldSize : Word) (layout : Layout) (region : Region) (machine : Machine σ)
    (result : Option Word) (region' : Region) (machine' : Machine σ) : Prop where
  refused : result = none → Untouched contract region machine region' machine'
  inUse : ∀ addr, result = some addr → region'.InUse ⟨addr, layout⟩
  aligned : ∀ addr, result = some addr →
    layout.align.bytes.toNat ∣ addr.toNat ∧ region.minAlign.bytes.toNat ∣ addr.toNat
  apart : ∀ addr, result = some addr → ∀ g ∈ blocks, Grant.Apart ⟨addr, layout⟩ g
  copied : ∀ addr old, result = some addr → block = some old →
    ∀ i < min oldSize.toNat layout.size.toNat,
      machine'.memory.get (addr + UInt64.ofNat i) = machine.memory.get (old + UInt64.ofNat i)
  kept : AgreeOn (blocks : Multiset Grant) machine.memory machine'.memory
  others : ∀ out, contract.holds (region.grants + out) machine.store →
    (∀ g ∈ region.grants, ∀ k ∈ out, g.Apart k) → AgreeOn out machine.memory machine'.memory

theorem Served.apart_others (placement : backing.Placement)
    (served : Served region layout (some addr) region')
    (h : placement.holds (region.grants + out) machine.store)
    (hapart : ∀ g ∈ region.grants, ∀ k ∈ out, g.Apart k) (hpos : 0 < layout.size.toNat)
    (ha : region.alloc backing layout machine = (some addr, region', machine')) :
    ∀ k ∈ out, Grant.Apart ⟨addr, layout⟩ k := by
  obtain ⟨hin, -⟩ := served.fresh addr rfl hpos
  obtain ⟨chunk, hchunk, hstart, hstop⟩ := hin.within served.valid
  have hgrant : chunk.grant ∈ region'.grants := mem_grants hchunk
  intro k hk
  refine Grant.Apart.within ?_ hstart hstop
  have hcalling := calling ha
  cases hcalling with
  | silent hgrants => exact hapart _ (hgrants ▸ hgrant) k hk
  | @asked chunkLayout answer _ _ _ hb hgrants =>
    rw [hgrants] at hgrant
    obtain hnew | hold := Multiset.mem_add.1 hgrant
    · cases answer with
      | none => exact absurd hnew (Multiset.notMem_zero _)
      | some start =>
        rw [Multiset.mem_singleton.1 hnew]
        obtain hzero | hchunkPos := Nat.eq_zero_or_pos chunkLayout.size.toNat
        · exact Grant.apart_of_empty hzero
        · exact (placement.alloc_fresh h hchunkPos hb).apart k (Multiset.mem_add.2 (.inr hk))
    · exact hapart _ hold k hk

theorem Safe.agree {memory' : Memory} (safe : Safe minAlign region blocks)
    (h : AgreeOn region.grants memory memory') :
    AgreeOn (blocks : Multiset Grant) memory memory' := by
  intro g hg a ha
  have hpos : 0 < g.layout.size.toNat := by
    obtain ⟨hstart, hstop⟩ := ha
    simp only [Grant.start, Grant.stop] at hstart hstop
    omega
  obtain ⟨hin, -⟩ := safe.placed g (Multiset.mem_coe.1 hg) hpos
  exact hin.agree safe.valid h g (Multiset.mem_singleton_self g) a ha

theorem Served.apart_blocks (safe : Safe minAlign region blocks)
    (served : Served region layout (some addr) region') (hpos : 0 < layout.size.toNat) :
    ∀ g ∈ blocks, Grant.Apart ⟨addr, layout⟩ g := by
  obtain ⟨-, -, -, hapart⟩ := served.fresh addr rfl hpos
  intro g hg
  obtain hzero | hgpos := Nat.eq_zero_or_pos g.layout.size.toNat
  · exact (Grant.apart_of_empty hzero).symm
  · exact hapart g (safe.placed g hg hgpos).1

theorem moves_alloc (contract : backing.Contract) (safe : Safe minAlign region blocks)
    (h : contract.holds (region.grants + rest) machine.store) (hpos : 0 < layout.size.toNat)
    (ha : region.alloc backing layout machine = (result, region', machine')) :
    Moves contract blocks none oldSize layout region machine result region' machine' := by
  have served := alloc_served contract.toPlacement safe.valid h ha
  refine ⟨?_, ?_, ?_, ?_, by simp, safe.agree (alloc_keeps contract h ha).left,
    fun out hout _ => (alloc_keeps contract hout ha).right⟩
  · rintro rfl
    exact alloc_untouched contract h ha
  · exact fun addr hanswer => (served.fresh addr hanswer hpos).1
  · rintro addr rfl
    obtain ⟨-, halign, hmin, -⟩ := served.fresh addr rfl hpos
    exact ⟨halign, hmin⟩
  · rintro addr rfl
    exact served.apart_blocks safe hpos

theorem Moves.copy {contract : backing.Contract} {old : Word}
    (safe : Safe minAlign region blocks) (served : Served region layout (some addr) region')
    (hpos : 0 < layout.size.toNat)
    (ha : region.alloc backing layout machine = (some addr, region', machine'))
    (moves : Moves contract blocks none oldSize layout region machine (some addr) region' machine')
    (hold : 0 < oldSize.toNat → ∃ g ∈ blocks, Grant.Within ⟨old, oldSize, .one⟩ g) :
    Moves contract blocks (some old) oldSize layout region machine (some addr) region'
      (machine'.mapMemory (·.copy old addr (min oldSize layout.size).toNat)) := by
  have hbounded : Grant.stop ⟨addr, layout⟩ ≤ 2 ^ 64 := (moves.inUse addr rfl).bounded served.valid
  have hmin : (min oldSize layout.size).toNat = min oldSize.toNat layout.size.toNat := Word.toNat_min
  have hroom : (min oldSize layout.size).toNat ≤ layout.size.toNat := hmin ▸ Nat.min_le_right _ _
  have hcopied : ∀ out : Multiset Grant, (∀ k ∈ out, Grant.Apart ⟨addr, layout⟩ k) →
      AgreeOn out machine'.memory
        (machine'.memory.copy old addr (min oldSize layout.size).toNat) :=
    fun out hapart => .copy (g := ⟨addr, layout⟩) hbounded hapart hroom
  refine { moves with
    refused := by simp
    copied := ?_
    kept := moves.kept.trans (hcopied _ (moves.apart addr rfl))
    others := fun out hout hapart => (moves.others out hout hapart).trans
      (hcopied out (served.apart_others contract.toPlacement hout hapart hpos ha)) }
  intro fresh source hanswer hblock i hi
  obtain rfl := Option.some.inj hanswer
  obtain rfl := Option.some.inj hblock
  obtain ⟨hiold, -⟩ := Nat.lt_min.1 hi
  obtain ⟨g, hg, hwithin⟩ := hold (Nat.zero_lt_of_lt hiold)
  have hgpos := hwithin.size_pos (Nat.zero_lt_of_lt hiold)
  have hgbounded := (safe.placed g hg hgpos).1.bounded safe.valid
  have hcovers := hwithin.covers (Grant.covers_add (Nat.le_trans hwithin.2 hgbounded) hiold)
  have hsame := moves.kept g (Multiset.mem_coe.2 hg) _ hcovers
  rw [← hsame]
  exact Memory.get_copy (hmin ▸ hi)
    (hmin ▸ Nat.le_trans (Nat.min_le_left _ _) (Nat.le_of_lt oldSize.toNat_lt))

theorem moves (contract : backing.Contract) (safe : Safe minAlign region blocks)
    (h : contract.holds (region.grants + rest) machine.store) (hpos : 0 < layout.size.toNat)
    (hold : ∀ old, block = some old → 0 < oldSize.toNat →
      ∃ g ∈ blocks, Grant.Within ⟨old, oldSize, .one⟩ g)
    (hr : region.realloc backing block oldSize layout machine = (result, region', machine')) :
    Moves contract blocks block oldSize layout region machine result region' machine' := by
  cases block with
  | none => exact moves_alloc contract safe h hpos hr
  | some old =>
    have hreallocating := hr ▸ reallocating backing region old oldSize machine hpos
    cases hreallocating with
    | refused ha =>
      have halloc : Moves contract blocks none oldSize layout region machine none _ _ :=
        moves_alloc contract safe h hpos ha
      exact { halloc with copied := by simp }
    | copied ha =>
      have served := alloc_served contract.toPlacement safe.valid h ha
      exact (moves_alloc contract safe h hpos ha).copy safe served hpos ha (hold old rfl)

theorem Served.grant_fresh (sound : region'.Sound)
    (served : Served region layout (some addr) region') (hpos : 0 < layout.size.toNat)
    (hapart : ∀ k ∈ out, Grant.Apart ⟨addr, layout⟩ k) : Grant.Fresh out ⟨addr, layout⟩ := by
  obtain ⟨hin, halign, -, -⟩ := served.fresh addr rfl hpos
  obtain ⟨chunk, hchunk, hwithin⟩ := hin.within sound.valid
  obtain ⟨hstart, -⟩ := sound.packed.within _ (mem_grants hchunk)
    (Grant.Within.size_pos hwithin hpos)
  have hne : addr ≠ 0 := by
    rintro rfl
    exact absurd (Nat.lt_of_lt_of_le hstart hwithin.1) (Nat.lt_irrefl 0)
  exact ⟨hne, halign, hin.bounded sound.valid, hapart⟩

theorem perform_spares (contract : backing.Contract) (sound : region.Sound)
    (h : contract.holds (region.grants + rest) machine.store) (hin : region.InUse g)
    (hop : op.forgets = false)
    (hp : op.perform backing region machine = (result, region', machine')) :
    region'.InUse g ∧ AgreeOn {g} machine.memory machine'.memory := by
  have hsound := sound.perform contract.toPlacement h hp
  have hperformed := hp ▸ performed op backing region machine
  cases hperformed with
  | declined => exact ⟨hin, .refl _ _⟩
  | requested memory _ hlayout ha hfills =>
    have served := alloc_served contract.toPlacement sound.valid h ha
    have hkept := hin.agree sound.valid (alloc_keeps contract h ha).left
    refine ⟨served.inUse g hin, hkept.trans (hfills _ ?_)⟩
    rintro addr rfl hpos
    obtain ⟨-, -, -, hapart⟩ := served.fresh addr rfl hpos
    exact served.grant_fresh hsound hpos fun k hk => Multiset.mem_singleton.1 hk ▸ hapart g hin
  | limited limit => exact ⟨hin, .refl _ _⟩
  | reset | deinit => cases hop

theorem inUse_runFrom (contract : backing.Contract) (sound : region.Sound)
    (h : contract.shared.holds (region.grants + granted home Object.regionLayout) machine.store)
    (hin : region.InUse g) {events : List (Operation × Option Word)}
    (run : RunFrom (fun op : Operation => op.perform backing) (fun op _ _ => op.forgets = false)
      (fun region machine machine' =>
        contract.shared.holds (region.grants + granted home Object.regionLayout) machine'.store ∧
          AgreeOn {g} machine.memory machine'.memory)
      region machine events region' machine') :
    region'.InUse g ∧ AgreeOn {g} machine.memory machine'.memory := by
  suffices hkept : region'.Sound ∧
      contract.shared.holds (region'.grants + granted home Object.regionLayout) machine'.store ∧
      region'.InUse g ∧ AgreeOn {g} machine.memory machine'.memory from hkept.2.2
  refine run.preserves (fun after later => after.Sound ∧
    contract.shared.holds (after.grants + granted home Object.regionLayout) later.store ∧
    after.InUse g ∧ AgreeOn {g} machine.memory later.memory) ⟨sound, h, hin, .refl _ _⟩ ?_ ?_
  · rintro op before between answer after later ⟨hsound, hholds, hused, hagree⟩ hop hp
    obtain ⟨hused', hagree'⟩ := perform_spares contract.shared hsound hholds hused hop hp
    exact ⟨hsound.perform contract.shared.toPlacement hholds hp,
      perform_holds contract.shared.toLedger hholds hp, hused', hagree.trans hagree'⟩
  · rintro after between later ⟨hsound, -, hused, hagree⟩ ⟨hholds, hsame⟩
    exact ⟨hsound, hholds, hused, hagree.trans hsame⟩

end Region

/-- Moving a block keeps its bytes, or leaves it as it was. An allocator that can not move blocks
itself gives the old one back once, after the request; a region leaves it readable until a reset. -/
theorem moving_blocks :
    (∀ {σ : Type} {inner : Allocator σ} {start machine : Machine (Recorded σ)} {held}
      (contract : inner.Contract), inner.nativeRealloc = none →
      contract.recorded.holds 0 start.store →
      Allocator.Usage inner.recorded
        (fun out _ machine' => contract.recorded.holds out machine'.store) start held machine →
      (∀ addr old out new, held = {⟨addr, old⟩} + out →
        Allocator.Relocation inner contract.recorded.holds out addr old new machine
          (inner.recorded.realloc (some addr) old new machine)) ∧
      ∀ old new result machine', inner.recorded.alloc new machine = (result, machine') →
        inner.recorded.realloc none old new machine = (result, machine') ∧
          machine'.store.calls = .alloc new result :: machine.store.calls) ∧
    ∀ {σ : Type} {backing : Allocator σ} {minAlign home blocks region}
      {start machine : Machine σ} (contract : backing.Contract),
      contract.shared.holds 0 start.store →
      Region.Run backing (fun mine _ machine' => contract.shared.holds mine machine'.store) minAlign
        start home blocks region machine →
      (∀ block oldSize layout result region' machine',
        (∀ old, block = some old → 0 < oldSize.toNat →
          ∃ g ∈ blocks, Grant.Within ⟨old, oldSize, .one⟩ g) →
        0 < layout.size.toNat →
        region.realloc backing block oldSize layout machine = (result, region', machine') →
        Region.Moves contract blocks block oldSize layout region machine result region' machine' ∧
          ∀ g ∈ blocks, 0 < g.layout.size.toNat → ∀ events after later,
            RunFrom (fun op : Region.Operation => op.perform backing)
              (fun op _ _ => op.forgets = false)
              (fun region machine machine' =>
                contract.shared.holds (region.grants + granted home Object.regionLayout)
                  machine'.store ∧
                AgreeOn {g} machine.memory machine'.memory)
              region' machine' events after later →
            after.InUse g ∧ AgreeOn {g} machine.memory later.memory) ∧
      (∀ old oldSize layout, layout.size = 0 →
        region.realloc backing (some old) oldSize layout machine = (none, region, machine)) ∧
      ∀ oldSize layout, region.realloc backing none oldSize layout machine =
        region.alloc backing layout machine := by
  constructor
  · intro σ inner start machine held contract hnative hstart usage
    have hcomposed : inner.recorded.nativeRealloc = none := by
      simp only [Allocator.recorded, hnative, Option.map_none]
    obtain ⟨h, packed⟩ := usage.packed contract.recorded.toPlacement hcomposed hstart
    refine ⟨?_, fun old new result machine' ha => ⟨ha, Allocator.calls_of_alloc ha⟩⟩
    rintro addr old out new rfl
    exact Allocator.relocation contract.recorded hnative packed h
  · intro σ backing minAlign home blocks region start machine contract hstart run
    have safe := run.safe contract.toPlacement hstart
    have sound := run.sound contract.toPlacement hstart
    have h := run.holds contract.shared.toLedger hstart fun _ ho => ho
    have hall := h
    obtain ⟨rest, hrest⟩ := hall
    rw [add_assoc] at hrest
    refine ⟨fun block oldSize layout result region' machine' hold hpos hr => ?_,
      fun old oldSize layout hsize => if_pos hsize, fun oldSize layout => rfl⟩
    have hmoves := Region.moves contract safe hrest hpos hold hr
    refine ⟨hmoves, fun g hg hgpos events after later hrun => ?_⟩
    have hp : Region.Operation.perform (.realloc block oldSize layout) backing region machine =
      (result, region', machine') := hr
    obtain ⟨hin, hagree⟩ := Region.perform_spares contract.shared sound h
      (safe.placed g hg hgpos).1 rfl hp
    obtain ⟨hused, hkept⟩ := Region.inUse_runFrom contract
      (sound.perform contract.shared.toPlacement h hp)
      (Region.perform_holds contract.shared.toLedger h hp) hin hrun
    exact ⟨hused, hagree.trans hkept⟩

theorem moving_blocks_window :
    (∃ machine : Machine (Recorded Platform),
      (∀ new, Allocator.Relocation Platform.plainWindow Platform.plainWindowContract.recorded.holds 0
        0x1000000000 ⟨100, .one⟩ new machine
        (Platform.plainWindow.recorded.realloc (some 0x1000000000) ⟨100, .one⟩ new machine)) ∧
      (Platform.plainWindow.recorded.realloc (some 0x1000000000) ⟨100, .one⟩ ⟨200, .eight⟩ machine).1 =
        some 0x1000000068 ∧
      (Platform.plainWindow.recorded.realloc (some 0x1000000000) ⟨100, .one⟩ ⟨100000, .one⟩
        machine).1 = none) ∧
    ∃ (region region' after : Region) (machine machine' later : Machine Platform),
      Region.Moves Platform.plainWindowContract [⟨0x1000000f68, ⟨100, .one⟩⟩] (some 0x1000000f70) 50
        ⟨200, .eight⟩ region machine (some 0x1000000ea0) region' machine' ∧
      after.chunks.length = 2 ∧ after.InUse ⟨0x1000000f68, ⟨100, .one⟩⟩ ∧
      AgreeOn {⟨0x1000000f68, ⟨100, .one⟩⟩} machine.memory later.memory := by
  constructor
  · have hstart : Platform.plainWindowContract.recorded.holds 0
        (⟨[], .ofCap 65536, {}⟩ : Recorded Platform) := ⟨by decide, by decide, by simp⟩
    have husage : Allocator.Usage Platform.plainWindow.recorded
        (fun out _ machine' => Platform.plainWindowContract.recorded.holds out machine'.store)
        { store := ⟨[], .ofCap 65536, {}⟩ } ({⟨0x1000000000, ⟨100, .one⟩⟩} + 0) _ :=
      .alloc .start (show Platform.plainWindow.recorded.alloc ⟨100, .one⟩ _ =
        (some 0x1000000000, _) from rfl)
    obtain ⟨hmoved, -⟩ := moving_blocks.1 Platform.plainWindowContract rfl hstart husage
    exact ⟨_, fun new => hmoved _ _ _ new rfl, by decide, by decide⟩
  · have hstart : Platform.plainWindowContract.shared.holds 0
        ({ store := ⟨.ofCap 65536, {}⟩ } : Machine Platform).store := Region.holds_window
    have hrun := Region.run_window.perform (.alloc ⟨100, .one⟩) rfl
    obtain ⟨hmoved, -, -⟩ := moving_blocks.2 Platform.plainWindowContract hstart hrun
    obtain ⟨hmoves, hstays⟩ := hmoved (some 0x1000000f70) 50 ⟨200, .eight⟩ _ _ _
      (fun old hold _ => ⟨_, List.mem_singleton_self _, by
        obtain rfl := Option.some.inj hold
        exact ⟨by decide, by decide⟩⟩) (by decide) rfl
    obtain ⟨hin, hagree⟩ := hstays ⟨0x1000000f68, ⟨100, .one⟩⟩ (List.mem_singleton_self _)
      (by decide) _ _ _ (.perform (.alloc ⟨5000, .one⟩) .nothing rfl rfl)
    exact ⟨_, _, _, _, _, _, hmoves, by decide, hin, hagree⟩

end ArenaMemory
