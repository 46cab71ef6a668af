import ArenaMemory.Proofs.Allocator.Accounting
import ArenaMemory.Proofs.Allocator.Recorder

namespace ArenaMemory

variable {σ : Type}

namespace Allocator

/-- The runs of the users of an allocator, with the blocks that they have out between them.
They write into those, and others use what the allocator itself rests on, as `others` says. -/
inductive Usage (allocator : Allocator σ) (others : Multiset Grant → Machine σ → Machine σ → Prop)
    (start : Machine σ) : Multiset Grant → Machine σ → Prop where
  | start : Usage allocator others start 0 start
  | alloc {out layout machine result machine'} : Usage allocator others start out machine →
      allocator.alloc layout machine = (result, machine') →
      Usage allocator others start (granted result layout + out) machine'
  | zalloc {out layout machine result machine'} : Usage allocator others start out machine →
      allocator.zalloc layout machine = (result, machine') →
      Usage allocator others start (granted result layout + out) machine'
  | free {out block layout machine} :
      Usage allocator others start (granted block layout + out) machine →
      Usage allocator others start out (allocator.free block layout machine)
  | realloc {out addr old new machine result machine'} : 0 < new.size.toNat →
      Usage allocator others start ({⟨addr, old⟩} + out) machine →
      allocator.realloc (some addr) old new machine = (result, machine') →
      Usage allocator others start ({moved addr old new result} + out) machine'
  | emptied {out addr old new machine machine'} : new.size = 0 →
      Usage allocator others start ({⟨addr, old⟩} + out) machine →
      allocator.realloc (some addr) old new machine = (none, machine') →
      Usage allocator others start out machine'
  | others {out machine machine'} : Usage allocator others start out machine →
      others out machine machine' → Usage allocator others start out machine'

variable {allocator inner : Allocator σ} {addr : Word} {old new layout : Layout}
  {out : Multiset Grant}

theorem realloc_emptied_composed {machine : Machine σ} (hnative : allocator.nativeRealloc = none)
    (hsize : new.size = 0) :
    allocator.realloc (some addr) old new machine = (none, allocator.release addr old machine) := by
  simp only [Allocator.realloc, hnative, if_pos hsize]

theorem Usage.packed {start machine : Machine σ} (placement : allocator.Placement)
    (hnative : allocator.nativeRealloc = none) (hstart : placement.holds 0 start.store)
    (usage : Usage allocator (fun out _ machine' => placement.holds out machine'.store) start out
      machine) : placement.holds out machine.store ∧ Packed out := by
  induction usage with
  | start => exact ⟨hstart, .zero⟩
  | alloc _ ha ih =>
    obtain ⟨h, packed⟩ := ih
    refine ⟨placement.alloc h ha, packed.granted fun addr hanswer hpos => ?_⟩
    exact placement.alloc_fresh h hpos (hanswer ▸ ha)
  | zalloc _ hz ih =>
    obtain ⟨h, packed⟩ := ih
    refine ⟨placement.toLedger.zalloc h hz, packed.granted fun addr hanswer hpos => ?_⟩
    exact placement.fresh_of_zalloc hpos h (hanswer ▸ hz)
  | free _ ih =>
    obtain ⟨h, packed⟩ := ih
    exact ⟨placement.toLedger.free h, packed.mono (Multiset.le_add_left _ _)⟩
  | @realloc out addr old new machine result machine' hnew _ hr ih =>
    obtain ⟨h, packed⟩ := ih
    refine ⟨placement.toLedger.realloc hnew h hr, ?_⟩
    cases result with
    | none => exact packed
    | some fresh => exact packed.tail.cons fun _ => placement.fresh_of_realloc hnew h hr
  | emptied hsize _ hr ih =>
    obtain ⟨h, packed⟩ := ih
    rw [realloc_emptied_composed hnative hsize] at hr
    obtain ⟨-, rfl⟩ := Prod.mk.inj hr
    exact ⟨placement.release h, packed.tail⟩
  | others _ ho ih => exact ⟨ho, ih.2⟩

/-- How moving a block ends that is out beside others: the calls that are made for it, the blocks
that are out afterwards, and whose bytes are as they were. -/
inductive Relocation (inner : Allocator σ) (holds : Multiset Grant → Recorded σ → Prop)
    (out : Multiset Grant) (addr : Word) (old new : Layout) (machine : Machine (Recorded σ)) :
    Option Word × Machine (Recorded σ) → Prop where
  | emptied {machine'} : new.size = 0 →
      machine'.store.calls = .release ⟨addr, old⟩ :: machine.store.calls →
      holds out machine'.store → AgreeOn out machine.memory machine'.memory →
      Relocation inner holds out addr old new machine (none, machine')
  | refused {machine'} : 0 < new.size.toNat → inner.recorded.alloc new machine = (none, machine') →
      machine'.store.calls = .alloc new none :: machine.store.calls →
      holds ({⟨addr, old⟩} + out) machine'.store →
      AgreeOn ({⟨addr, old⟩} + out) machine.memory machine'.memory →
      Relocation inner holds out addr old new machine (none, machine')
  | moved {fresh served machine'} : 0 < new.size.toNat →
      inner.recorded.alloc new machine = (some fresh, served) →
      machine'.store.calls =
        .release ⟨addr, old⟩ :: .alloc new (some fresh) :: machine.store.calls →
      Grant.Fresh ({⟨addr, old⟩} + out) ⟨fresh, new⟩ →
      holds ({⟨fresh, new⟩} + out) machine'.store →
      (∀ i < min old.size.toNat new.size.toNat,
        machine'.memory.get (fresh + UInt64.ofNat i) =
          machine.memory.get (addr + UInt64.ofNat i)) →
      AgreeOn out machine.memory machine'.memory →
      Relocation inner holds out addr old new machine (some fresh, machine')

variable {machine machine' : Machine (Recorded σ)} {result : Option Word}

theorem calls_of_alloc (ha : inner.recorded.alloc layout machine = (result, machine')) :
    machine'.store.calls = .alloc layout result :: machine.store.calls := by
  obtain ⟨rfl, rfl⟩ := Prod.mk.inj ha
  rfl

theorem relocation (contract : inner.recorded.Contract) (hnative : inner.nativeRealloc = none)
    (hpacked : Packed ({⟨addr, old⟩} + out))
    (h : contract.holds ({⟨addr, old⟩} + out) machine.store) :
    Relocation inner contract.holds out addr old new machine
      (inner.recorded.realloc (some addr) old new machine) := by
  have hcomposed : inner.recorded.nativeRealloc = none := by
    simp only [recorded, hnative, Option.map_none]
  obtain hzero | hnew := Nat.eq_zero_or_pos new.size.toNat
  · have hsize : new.size = 0 := UInt64.toNat_inj.1 hzero
    rw [realloc_emptied_composed hcomposed hsize]
    exact .emptied hsize rfl (contract.release h) (contract.release_keeps h)
  have hmoving := moving inner.recorded addr old machine hnew
  generalize hr : inner.recorded.realloc (some addr) old new machine = answer at hmoving
  cases hmoving with
  | native hsome _ =>
    rw [hcomposed] at hsome
    cases hsome
  | refused ha =>
    exact .refused hnew ha (calls_of_alloc ha) (contract.toLedger.realloc hnew h hr)
      (contract.alloc_keeps h ha)
  | copied ha =>
    have hbounded : 0 < old.size.toNat → Grant.stop ⟨addr, old⟩ ≤ 2 ^ 64 :=
      fun hpos => (hpacked.within _ (Multiset.mem_add.2 (.inl (Multiset.mem_singleton_self _))) hpos).2
    exact .moved hnew ha (by rw [← calls_of_alloc ha]; rfl)
      (contract.alloc_fresh h hnew ha) (contract.toLedger.realloc hnew h hr)
      (contract.bytes_of_moved hnew hbounded h hr) (contract.realloc_agree hnew h hr)

end Allocator

end ArenaMemory
