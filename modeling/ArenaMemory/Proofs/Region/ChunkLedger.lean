import ArenaMemory.Proofs.Allocator.Accounting
import ArenaMemory.Proofs.Allocator.Recorder
import ArenaMemory.Proofs.Allocator.Window
import ArenaMemory.Proofs.Region.Run

namespace ArenaMemory

variable {σ : Type}

def releaseCalls (chunks : List Chunk) : List Call :=
  (chunks.map fun chunk => Call.release chunk.grant).reverse

/-- Every call that gave a block back named one that was outstanding at the time. -/
def ReleasesHeld (calls : List Call) : Prop :=
  ∀ newer earlier g, calls = newer ++ .release g :: earlier →
    ∃ held, outstanding? earlier = some held ∧ g ∈ held

namespace Region

variable {inner : Allocator σ} {minAlign : Word} {home : Option Word} {blocks : List Grant}
  {region : Region}

section Recorded

variable {start machine : Machine (Recorded σ)}

theorem releasesHeld {calls : List Call} {out : Multiset Grant}
    (h : outstanding? calls = some out) :
    ReleasesHeld calls := by
  rintro newer earlier g rfl
  exact held_of_released h

theorem releaseChunks_calls (chunks : List Chunk) :
    (releaseChunks inner.recorded chunks machine).store.calls =
      releaseCalls chunks ++ machine.store.calls := by
  induction chunks generalizing machine with
  | nil => rfl
  | cons chunk chunks ih =>
    rw [releaseCalls, List.map_cons, List.reverse_cons, List.append_assoc]
    exact ih

theorem deinit_calls : (region.deinit inner.recorded machine).2.store.calls =
    releaseCalls region.chunks ++ machine.store.calls :=
  releaseChunks_calls region.chunks

theorem reset_calls : (region.reset inner.recorded machine).2.store.calls =
    releaseCalls region.chunks.tail ++ machine.store.calls := by
  rw [reset]
  split
  next hchunks =>
    rw [hchunks]
    rfl
  next newest older hchunks =>
    rw [hchunks]
    exact releaseChunks_calls older

theorem reset_grants : (region.reset inner.recorded machine).1.chunks.map Chunk.grant =
    (region.chunks.take 1).map Chunk.grant := by
  rw [reset]
  split
  next hchunks => rw [hchunks]; rfl
  next newest older hchunks => rw [hchunks]; rfl

theorem Run.outstanding (hstart : start.store.calls = [])
    (run : Run inner.recorded (fun _ machine machine' => machine'.store.calls = machine.store.calls)
      minAlign start home blocks region machine) :
    outstanding? machine.store.calls = some (region.grants + granted home Object.regionLayout) := by
  refine run.holds inner.recordedLedger (congrArg outstanding? hstart) fun h ho => ?_
  exact (congrArg outstanding? ho).trans h

end Recorded

section Tracked

variable {start machine : Machine (Tracker × σ)}

theorem bytesOut_grants : bytesOut region.grants =
    (region.chunks.map fun chunk => chunk.layout.size.toNat).sum := by
  rw [bytesOut, grants, Multiset.map_coe, Multiset.sum_coe, List.map_map]
  rfl

theorem bytesOut_home :
    bytesOut (granted home Object.regionLayout) = if home.isSome then 48 else 0 := by
  cases home <;> rfl

theorem Run.counted (placement : inner.Placement) (hstart : start.store.1.stats.outstanding = 0)
    (hbehind : placement.shared.holds 0 start.store.2)
    (run : Run inner.accounted
      (fun mine machine machine' => machine'.store.1.stats = machine.store.1.stats ∧
        placement.shared.holds mine machine'.store.2) minAlign start home blocks region machine) :
    placement.shared.accounted.holds (region.grants + granted home Object.regionLayout)
      machine.store := by
  refine run.holds placement.shared.accounted.toLedger ⟨hbehind, .zero, ?_⟩ fun h ho =>
    ⟨ho.2, h.2.1, ?_⟩
  · rw [hstart]
    rfl
  · rw [ho.1]
    exact h.2.2

end Tracked

/-- Between any two operations the blocks out are the chunks on the list and the region's own
storage. A reset gives back all chunks but the newest, a deinit every chunk, newest first. -/
theorem chunk_ledger :
    (∀ {σ : Type} {inner : Allocator σ} {minAlign home blocks region}
      {start machine : Machine (Recorded σ)}, start.store.calls = [] →
      Run inner.recorded (fun _ machine machine' => machine'.store.calls = machine.store.calls)
        minAlign start home blocks region machine →
      ReleasesHeld machine.store.calls ∧
      outstanding? machine.store.calls = some (region.grants + granted home Object.regionLayout) ∧
      ((region.reset inner.recorded machine).1.chunks.map Chunk.grant =
          (region.chunks.take 1).map Chunk.grant ∧
        (region.reset inner.recorded machine).2.store.calls =
          releaseCalls region.chunks.tail ++ machine.store.calls) ∧
      ((region.deinit inner.recorded machine).1.chunks = [] ∧
        (region.deinit inner.recorded machine).2.store.calls =
          releaseCalls region.chunks ++ machine.store.calls) ∧
      (region.drop inner.recorded home machine).store.calls =
        (home.map fun addr => Call.release ⟨addr, Object.regionLayout⟩).toList ++
          releaseCalls region.chunks ++ machine.store.calls ∧
      ReleasesHeld (region.drop inner.recorded home machine).store.calls ∧
      outstanding? (region.drop inner.recorded home machine).store.calls = some 0) ∧
    (∀ {σ : Type} {inner : Allocator σ} {minAlign home blocks region}
      {start machine : Machine (Tracker × σ)} (placement : inner.Placement),
      start.store.1.stats.outstanding = 0 → placement.shared.holds 0 start.store.2 →
      Run inner.accounted
        (fun mine machine machine' => machine'.store.1.stats = machine.store.1.stats ∧
          placement.shared.holds mine machine'.store.2) minAlign start home blocks region machine →
      machine.store.1.stats.outstanding.toNat =
        (region.chunks.map fun chunk => chunk.layout.size.toNat).sum +
          (if home.isSome then 48 else 0) ∧
      (region.drop inner.accounted home machine).store.1.stats.outstanding.toNat = 0) := by
  constructor
  · intro σ inner minAlign home blocks region start machine hstart run
    have hout := run.outstanding hstart
    have hdrop : outstanding? (region.drop inner.recorded home machine).store.calls = some 0 :=
      drop_holds inner.recordedLedger ((add_zero (granted home Object.regionLayout)).symm ▸ hout)
    refine ⟨releasesHeld hout, hout, ⟨reset_grants, reset_calls⟩, ⟨rfl, deinit_calls⟩, ?_,
      releasesHeld hdrop, hdrop⟩
    cases home with
    | none => exact deinit_calls
    | some home => exact congrArg (_ :: ·) deinit_calls
  · intro σ inner minAlign home blocks region start machine placement hstart hbehind run
    have hcounted := run.counted placement hstart hbehind
    constructor
    · rw [hcounted.2.outstanding_eq, bytesOut_add, bytesOut_grants, bytesOut_home]
    · rw [← add_zero (granted home Object.regionLayout)] at hcounted
      exact (drop_holds placement.shared.accounted.toLedger hcounted).2.outstanding_eq

theorem chunk_ledger_two_chunks :
    (∃ (region : Region) (machine : Machine (Recorded Platform)),
      region.chunks.map Chunk.grant =
        [⟨0x1000001040, ⟨8192, .sixtyFour⟩⟩, ⟨0x1000000030, ⟨4096, .sixteen⟩⟩] ∧
      outstanding? machine.store.calls =
        some (region.grants + {⟨0x1000000000, Object.regionLayout⟩}) ∧
      ReleasesHeld
        (region.drop Platform.plainWindow.recorded (some 0x1000000000) machine).store.calls ∧
      outstanding?
        (region.drop Platform.plainWindow.recorded (some 0x1000000000) machine).store.calls =
        some 0) ∧
    ∃ (region : Region) (machine : Machine (Tracker × Platform)),
      (region.chunks.map fun chunk => chunk.layout.size.toNat) = [8192, 4096] ∧
      machine.store.1.stats.outstanding.toNat = 12288 + 48 ∧
      (region.drop Platform.plainWindow.accounted (some 0x1000000000)
        machine).store.1.stats.outstanding.toNat = 0 := by
  have hcreate : Region.create 0x10000 8 = .ok ⟨0x10000, .eight, by decide, none, []⟩ := by decide
  constructor
  · have hboxed : Run Platform.plainWindow.recorded
        (fun _ machine machine' => machine'.store.calls = machine.store.calls) 8
        { store := { inner := ⟨.ofCap 65536, {}⟩ } } (some 0x1000000000) []
        ⟨0x10000, .eight, by decide, none, []⟩ _ := .box hcreate (Prod.ext (by decide) rfl)
    obtain ⟨-, hout, -, -, -, hheld, hdrop⟩ := chunk_ledger.1 rfl
      ((hboxed.perform (.alloc ⟨100, .one⟩) rfl).perform (.alloc ⟨5000, .sixtyFour⟩) rfl)
    exact ⟨_, _, by decide, hout, hheld, hdrop⟩
  · have hbehind : Platform.plainWindowContract.toPlacement.shared.holds 0
        (⟨.ofCap 65536, {}⟩ : Platform) := ⟨0, by decide, by decide, by simp⟩
    have hboxed : Run Platform.plainWindow.accounted
        (fun mine machine machine' => machine'.store.1.stats = machine.store.1.stats ∧
          Platform.plainWindowContract.toPlacement.shared.holds mine machine'.store.2) 8
        { store := ({}, ⟨.ofCap 65536, {}⟩) } (some 0x1000000000) []
        ⟨0x10000, .eight, by decide, none, []⟩ _ := .box hcreate (Prod.ext (by decide) rfl)
    have hcounted := chunk_ledger.2 Platform.plainWindowContract.toPlacement rfl hbehind
      ((hboxed.perform (.alloc ⟨100, .one⟩) rfl).perform (.alloc ⟨5000, .sixtyFour⟩) rfl)
    exact ⟨_, _, by decide, hcounted.1, hcounted.2⟩

end Region

end ArenaMemory
