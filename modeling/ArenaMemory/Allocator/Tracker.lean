import ArenaMemory.Allocator.Basic

namespace ArenaMemory

variable {σ : Type}

structure TrackerStats where
  allocations : Word := 0
  frees : Word := 0
  /-- Requests refused, by the budget or by the allocator behind. -/
  failures : Word := 0
  outstanding : Word := 0
  peak : Word := 0
deriving DecidableEq

def TrackerStats.describe (stats : TrackerStats) : String :=
  s!"TrackingStats \x7b allocations: {stats.allocations}, frees: {stats.frees}, "
    ++ s!"failures: {stats.failures}, outstanding_bytes: {stats.outstanding}, "
    ++ s!"peak_bytes: {stats.peak} \x7d"

structure Tracker where
  budget : Option Word := none
  stats : TrackerStats := {}
deriving DecidableEq

namespace Tracker

def setBudget (tracker : Tracker) (budget : Option Word) : Tracker :=
  { tracker with budget }

/-- The budget has room for that many bytes more. A sum that is no word fits no budget. -/
def fits (tracker : Tracker) (size : Word) : Bool :=
  match tracker.budget with
  | none => true
  | some budget =>
    match Word.checkedAdd tracker.stats.outstanding size with
    | none => false
    | some total => total ≤ budget

def recordServed (tracker : Tracker) (size : Word) : Tracker :=
  let outstanding := tracker.stats.outstanding + size
  { tracker with
    stats := { tracker.stats with
      allocations := tracker.stats.allocations + 1
      outstanding
      peak := max tracker.stats.peak outstanding } }

def recordRefused (tracker : Tracker) : Tracker :=
  { tracker with stats := { tracker.stats with failures := tracker.stats.failures + 1 } }

def recordFreed (tracker : Tracker) (size : Word) : Tracker :=
  { tracker with
    stats := { tracker.stats with
      frees := tracker.stats.frees + 1
      outstanding := Word.saturatingSub tracker.stats.outstanding size } }

def request (tracker : Tracker) (inner : Layout → Machine σ → Option Word × Machine σ)
    (layout : Layout) (machine : Machine σ) : Option Word × Tracker × Machine σ :=
  if tracker.fits layout.size then
    match inner layout machine with
    | (none, machine) => (none, tracker.recordRefused, machine)
    | (some addr, machine) => (some addr, tracker.recordServed layout.size, machine)
  else
    (none, tracker.recordRefused, machine.emit (.budgetRefused layout.size tracker.budget))

end Tracker

/-- The handle of a tracker that the store holds, in front of the allocator `inner`. Moving a block
is left to the handle, so it is accounted for as a request and a release. -/
def Allocator.tracked (inner : Allocator σ) (tracker? : σ → Option Tracker)
    (put : Tracker → σ → σ) : Allocator σ where
  stateless := false
  alloc layout machine := serve inner.alloc layout machine
  release addr layout machine :=
    match tracker? machine.store with
    | none => machine
    | some tracker =>
      inner.release addr layout
        { machine with store := put (tracker.recordFreed layout.size) machine.store }
  nativeRealloc := none
  nativeZalloc := some fun layout machine => serve inner.zalloc layout machine
where
  serve (request : Layout → Machine σ → Option Word × Machine σ) (layout : Layout)
      (machine : Machine σ) : Option Word × Machine σ :=
    match tracker? machine.store with
    | none => (none, machine)
    | some tracker =>
      let (result, tracker, machine) := tracker.request request layout machine
      (result, { machine with store := put tracker machine.store })

end ArenaMemory
