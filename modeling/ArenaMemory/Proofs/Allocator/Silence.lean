import ArenaMemory.World.Basic
import ArenaMemory.Proofs.Allocator.Recorder
import ArenaMemory.Proofs.Allocator.Sparing

namespace ArenaMemory

variable {σ τ : Type}

namespace Event

def ofRegion : Event → Bool
  | .chunkAcquired .. | .chunkReleased .. | .limitReached .. | .regionReset .. => true
  | _ => false

def ofInterner : Event → Bool
  | .bufferGrew .. | .internFailed .. => true
  | _ => false

theorem ofRegion_iff {event : Event} : event.ofRegion ↔ event.target = "strata::region" := by
  cases event <;> simp [ofRegion, target]

theorem ofInterner_iff {event : Event} : event.ofInterner ↔ event.target = "strata::interner" := by
  cases event <;> simp [ofInterner, target]

theorem ofInterner_of_ofRegion {event : Event} (h : event.ofRegion = true) :
    event.ofInterner = false := by
  cases event with
  | chunkAcquired | chunkReleased | limitReached | regionReset => rfl
  | _ => cases h

end Event

namespace Machine

/-- The events of the trace that are shown, newest first. -/
def eventsOf (shown : Event → Bool) (machine : Machine σ) : List Event := machine.trace.filter shown

def Quiet (shown : Event → Bool) (machine machine' : Machine σ) : Prop :=
  machine'.eventsOf shown = machine.eventsOf shown

variable {shown : Event → Bool} {machine : Machine σ} {event : Event}

@[simp]
theorem eventsOf_mapMemory (f : Memory → Memory) :
    (machine.mapMemory f).eventsOf shown = machine.eventsOf shown :=
  rfl

theorem eventsOf_emit_shown (h : shown event = true) :
    (machine.emit event).eventsOf shown = event :: machine.eventsOf shown :=
  List.filter_cons_of_pos h

theorem eventsOf_emit_hidden (h : shown event = false) :
    (machine.emit event).eventsOf shown = machine.eventsOf shown :=
  List.filter_cons_of_neg (by simp [h])

end Machine

namespace Allocator

variable {shown : Event → Bool} {allocator inner : Allocator σ} {machine machine' : Machine σ}
  {layout element : Layout} {result : Option Word} {addr : Word} {old new : Layout}

structure Silent (allocator : Allocator σ) (shown : Event → Bool) : Prop where
  alloc : ∀ {layout machine result machine'}, allocator.alloc layout machine = (result, machine') →
    machine'.eventsOf shown = machine.eventsOf shown
  release : ∀ addr layout machine,
    (allocator.release addr layout machine).eventsOf shown = machine.eventsOf shown
  nativeRealloc : ∀ {realloc}, allocator.nativeRealloc = some realloc →
    ∀ {addr old new machine result machine'}, realloc addr old new machine = (result, machine') →
      machine'.eventsOf shown = machine.eventsOf shown
  nativeZalloc : ∀ {zalloc}, allocator.nativeZalloc = some zalloc →
    ∀ {layout machine result machine'}, zalloc layout machine = (result, machine') →
      machine'.eventsOf shown = machine.eventsOf shown

namespace Silent

section Handle

variable (silent : allocator.Silent shown)
include silent

theorem zalloc (hz : allocator.zalloc layout machine = (result, machine')) :
    machine'.eventsOf shown = machine.eventsOf shown := by
  have hzeroing := hz ▸ zeroing allocator layout machine
  cases hzeroing with
  | native hnative hn => exact silent.nativeZalloc hnative hn
  | refused ha => exact silent.alloc ha
  | cleared ha => rw [Machine.eventsOf_mapMemory, silent.alloc ha]

theorem realloc (hr : allocator.realloc (some addr) old new machine = (result, machine')) :
    machine'.eventsOf shown = machine.eventsOf shown := by
  obtain hzero | hpos := Nat.eq_zero_or_pos new.size.toNat
  case inr =>
    have hmoving := hr ▸ moving allocator addr old machine hpos
    cases hmoving with
    | native hnative hn => exact silent.nativeRealloc hnative hn
    | refused ha => exact silent.alloc ha
    | copied ha => rw [silent.release, Machine.eventsOf_mapMemory, silent.alloc ha]
  -- an empty new layout is moved to natively, or gives the block back
  have hsize : new.size = 0 := UInt64.toNat_inj.1 hzero
  rw [Allocator.realloc] at hr
  cases hnative : allocator.nativeRealloc with
  | some native =>
    rw [hnative] at hr
    exact silent.nativeRealloc hnative hr
  | none =>
    rw [hnative] at hr
    dsimp only at hr
    rw [if_pos hsize] at hr
    obtain ⟨-, rfl⟩ := Prod.mk.inj hr
    exact silent.release _ _ _

theorem zallocArray {count : Nat}
    (hz : allocator.zallocArray element count machine = (result, machine')) :
    machine'.eventsOf shown = machine.eventsOf shown := by
  rw [Allocator.zallocArray] at hz
  split at hz
  · obtain ⟨-, rfl⟩ := Prod.mk.inj hz
    rfl
  · exact silent.zalloc hz

theorem recorded : allocator.recorded.Silent shown where
  alloc := by
    intro layout machine result machine' ha
    obtain ⟨rfl, rfl⟩ := Prod.mk.inj ha
    have hevents : (allocator.alloc layout (machine.withStore machine.store.inner)).2.eventsOf shown =
        machine.eventsOf shown := silent.alloc rfl
    exact hevents
  release addr layout machine :=
    silent.release addr layout (machine.withStore machine.store.inner)
  nativeRealloc := by
    intro _ hnative addr old new machine result machine' hr
    obtain ⟨realloc, hinner, rfl⟩ := Option.map_eq_some_iff.1 hnative
    obtain ⟨rfl, rfl⟩ := Prod.mk.inj hr
    exact silent.nativeRealloc hinner rfl
  nativeZalloc := by
    intro _ hnative layout machine result machine' hz
    obtain ⟨zalloc, hinner, rfl⟩ := Option.map_eq_some_iff.1 hnative
    obtain ⟨rfl, rfl⟩ := Prod.mk.inj hz
    exact silent.nativeZalloc hinner rfl

theorem within {part : τ → σ} {put : σ → τ → τ} : (allocator.within part put).Silent shown where
  alloc := by
    intro layout machine result machine' ha
    obtain ⟨served, hinner, rfl⟩ := within_alloc ha
    exact silent.alloc hinner
  release addr layout machine := silent.release addr layout (machine.withStore (part machine.store))
  nativeRealloc := by
    intro _ hnative addr old new machine result machine' hr
    obtain ⟨native, served, hinner, hserved, rfl⟩ := within_nativeRealloc hnative hr
    exact silent.nativeRealloc hinner hserved
  nativeZalloc := by
    intro _ hnative layout machine result machine' hz
    obtain ⟨native, served, hinner, hserved, rfl⟩ := within_nativeZalloc hnative hz
    exact silent.nativeZalloc hinner hserved

end Handle

section Tracked

variable {tracker? : σ → Option Tracker} {put : Tracker → σ → σ}

theorem tracked_serve (hidden : ∀ size budget, shown (.budgetRefused size budget) = false)
    {request : Layout → Machine σ → Option Word × Machine σ}
    (hquiet : ∀ {layout machine result machine'}, request layout machine = (result, machine') →
      machine'.eventsOf shown = machine.eventsOf shown)
    (hs : tracked.serve tracker? put request layout machine = (result, machine')) :
    machine'.eventsOf shown = machine.eventsOf shown := by
  unfold tracked.serve Tracker.request at hs
  cases htracker : tracker? machine.store with
  | none =>
    rw [htracker] at hs
    obtain ⟨-, rfl⟩ := Prod.mk.inj hs
    rfl
  | some tracker =>
    simp only [htracker] at hs
    split at hs
    · rcases hr : request layout machine with ⟨_ | addr, served⟩
      all_goals
        rw [hr] at hs
        obtain ⟨-, rfl⟩ := Prod.mk.inj hs
        have hevents := hquiet hr
        exact hevents
    · obtain ⟨-, rfl⟩ := Prod.mk.inj hs
      exact Machine.eventsOf_emit_hidden (hidden _ _)

theorem tracked (hidden : ∀ size budget, shown (.budgetRefused size budget) = false)
    (silent : inner.Silent shown) : (inner.tracked tracker? put).Silent shown where
  alloc ha := tracked_serve hidden silent.alloc ha
  release := by
    intro addr layout machine
    simp only [Allocator.tracked]
    split
    · rfl
    · exact silent.release addr layout _
  nativeRealloc hnative := by cases hnative
  nativeZalloc := by
    intro _ hnative layout machine result machine' hz
    obtain rfl := Option.some.inj hnative
    exact tracked_serve hidden silent.zalloc hz

end Tracked

end Silent

end Allocator

namespace Platform

variable {shown : Event → Bool} {machine machine' : Machine Platform} {result : Option Word}
  {layout : Layout}

theorem eventsOf_windowAlloc {call : Layout → Option Word → WindowCall}
    (ha : windowAlloc call layout machine = (result, machine')) :
    machine'.eventsOf shown = machine.eventsOf shown := by
  obtain ⟨-, rfl⟩ := Prod.mk.inj ha
  rfl

theorem plainWindow_silent (shown : Event → Bool) : plainWindow.Silent shown where
  alloc := eventsOf_windowAlloc
  release _ _ _ := rfl
  nativeRealloc hnative := by cases hnative
  nativeZalloc hnative := by cases hnative

theorem fullWindow_silent (shown : Event → Bool) : fullWindow.Silent shown where
  alloc := eventsOf_windowAlloc
  release _ _ _ := rfl
  nativeRealloc := by
    intro _ hnative addr old new machine result machine' hr
    obtain rfl := Option.some.inj hnative
    rw [windowRealloc] at hr
    split at hr
    all_goals
      next ha =>
        obtain ⟨-, rfl⟩ := Prod.mk.inj hr
        have hevents : _ = machine.eventsOf shown := eventsOf_windowAlloc ha
        exact hevents
  nativeZalloc := by
    intro _ hnative layout machine result machine' hz
    obtain rfl := Option.some.inj hnative
    rw [windowZalloc] at hz
    split at hz
    all_goals
      next ha =>
        obtain ⟨-, rfl⟩ := Prod.mk.inj hz
        have hevents : _ = machine.eventsOf shown := eventsOf_windowAlloc ha
        exact hevents

section Heap

variable (hidden : ∀ size align, shown (.heapRefused size align) = false)
include hidden

theorem eventsOf_heapAlloc (ha : heapAlloc layout machine = (result, machine')) :
    machine'.eventsOf shown = machine.eventsOf shown := by
  rw [heapAlloc] at ha
  dsimp only at ha
  split at ha
  · obtain ⟨-, rfl⟩ := Prod.mk.inj ha
    exact Machine.eventsOf_emit_hidden (hidden _ _)
  · obtain ⟨-, rfl⟩ := Prod.mk.inj ha
    rfl

theorem systemHeap_silent : systemHeap.Silent shown where
  alloc := eventsOf_heapAlloc hidden
  release _ _ _ := rfl
  nativeRealloc hnative := by cases hnative
  nativeZalloc := by
    intro _ hnative layout machine result machine' hz
    obtain rfl := Option.some.inj hnative
    rw [heapZalloc] at hz
    split at hz
    all_goals
      next ha =>
        obtain ⟨-, rfl⟩ := Prod.mk.inj hz
        have hevents := eventsOf_heapAlloc hidden ha
        exact hevents

end Heap

end Platform

end ArenaMemory
