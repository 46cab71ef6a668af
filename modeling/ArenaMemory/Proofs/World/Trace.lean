import ArenaMemory.Proofs.Interner.Trace
import ArenaMemory.Proofs.Region.Trace

namespace ArenaMemory

variable {shown : Event → Bool}

theorem BaseName.silent (hidden : ∀ size align, shown (.heapRefused size align) = false)
    (which : BaseName) : which.allocator.Silent shown := by
  cases which with
  | window => exact Platform.plainWindow_silent shown
  | fullWindow => exact Platform.fullWindow_silent shown
  | system => exact Platform.systemHeap_silent hidden

namespace Origin

variable {ι : Type}

def hasRegion : Origin ι → Bool
  | .base _ => false
  | .tracker _ inner => inner.hasRegion
  | .region .. => true

end Origin

namespace World

theorem allocator_silent_interner (origin : Origin BaseName) :
    (allocator origin).Silent Event.ofInterner := by
  induction origin with
  | base which =>
    have silent : which.allocator.Silent Event.ofInterner := which.silent fun _ _ => rfl
    exact silent.within
  | tracker name inner ih => exact .tracked (fun _ _ => rfl) ih
  | region name inner ih => exact .ofRegion (fun _ => Event.ofInterner_of_ofRegion) ih

theorem allocator_silent_region {origin : Origin BaseName} (h : origin.hasRegion = false) :
    (allocator origin).Silent Event.ofRegion := by
  induction origin with
  | base which =>
    have silent : which.allocator.Silent Event.ofRegion := which.silent fun _ _ => rfl
    exact silent.within
  | tracker name inner ih => exact .tracked (fun _ _ => rfl) (ih h)
  | region name inner => cases h

end World

/-- Every traced run has a trace that agrees with its state, for regions and for interners. The
handles of a world are silent about interners, and about regions as long as there is none beneath.
-/
theorem trace_accounts :
    (∀ {σ : Type} {inner : Allocator σ} {minAlign home blocks region}
      {start machine : Machine (Recorded σ)}, inner.Silent Event.ofRegion →
      Region.Run inner.recorded (fun _ => Machine.Quiet Event.ofRegion) minAlign start home blocks
        region machine →
      (∃ begun steps, Region.Begins inner.recorded home start begun ∧
        Region.TracedRun inner minAlign begun steps region machine) ∧
      ∀ begun steps, Region.TracedRun inner minAlign begun steps region machine →
        Region.TraceAgrees begun steps region machine) ∧
    (∀ {σ : Type} {allocator : Allocator σ} {contentHash history interner}
      {start machine : Machine σ}, allocator.Silent Event.ofInterner →
      Interner.Run contentHash allocator (fun _ => Machine.Quiet Event.ofInterner) start history
        interner machine →
      (∃ made steps,
        Interner.TracedRun contentHash allocator start made steps interner machine ∧
        steps.map (fun step => (step.op, step.answer)) = history) ∧
      ∀ made steps,
        Interner.TracedRun contentHash allocator start made steps interner machine →
        Interner.TraceAgrees start made steps interner machine) ∧
    ∀ origin : Origin BaseName, (World.allocator origin).Silent Event.ofInterner ∧
      (origin.hasRegion = false → (World.allocator origin).Silent Event.ofRegion) := by
  refine ⟨?_, ?_, ?_⟩
  · intro σ inner minAlign home blocks region start machine silent run
    exact ⟨run.traced silent, fun begun steps traced => traced.traceAgrees silent⟩
  · intro σ allocator contentHash history interner start machine silent run
    exact ⟨run.traced silent, fun made steps traced => traced.traceAgrees silent⟩
  · intro origin
    exact ⟨World.allocator_silent_interner origin, World.allocator_silent_region⟩

theorem trace_accounts_refused :
    (∃ (steps : List Region.TracedOperation) (region : Region) (machine : Machine (Recorded Platform)),
      Region.TraceAgrees { store := ⟨[], .ofCap 65536, {}⟩ } steps region machine ∧
      machine.eventsOf Event.ofRegion = [.regionReset 8096, .chunkReleased 4096,
        .limitReached 50000 13000 12144, .chunkAcquired 8144 16 12144, .chunkAcquired 4096 16 4048] ∧
      region.stats.chunkCount = 1) ∧
    (∃ (made : List Event) (steps : List Interner.TracedOperation) (interner : Interner)
      (machine : Machine Platform),
      Interner.TraceAgrees { store := ⟨.ofCap 1000, {}⟩ } made steps interner machine ∧
      machine.eventsOf Event.ofInterner = [.internFailed 1 (.arenaExhausted 1), .bufferGrew .map 0 16,
        .internFailed 1 (.arenaExhausted 1), .bufferGrew .map 0 16] ∧
      interner.map.capacity = 16) ∧
    (World.allocator (.tracker "tracker" (.base .system))).Silent Event.ofRegion := by
  refine ⟨?_, ?_, (trace_accounts.2.2 _).2 rfl⟩
  · have hcreated : Region.Run Platform.plainWindow.recorded (fun _ => Machine.Quiet Event.ofRegion)
        8 { store := ⟨[], .ofCap 65536, {}⟩ } none [] ⟨0x10000, .eight, by decide, none, []⟩
        { store := ⟨[], .ofCap 65536, {}⟩ } := .create (show Region.create 0x10000 8 = _ by decide)
    have hgrown := (hcreated.perform (.alloc ⟨100, .one⟩) rfl).perform (.alloc ⟨5000, .one⟩) rfl
    have hrefused := (hgrown.perform (.setLimit (some 13000)) rfl).perform
      (.alloc ⟨50000, .one⟩) rfl
    have hreset := (hrefused.perform .reset rfl).perform (.alloc ⟨8, .one⟩) rfl
    obtain ⟨⟨begun, steps, hbegins, traced⟩, hall⟩ :=
      trace_accounts.1 (Platform.plainWindow_silent _) hreset
    obtain rfl : begun = _ := hbegins
    exact ⟨steps, _, _, hall _ steps traced, by decide, by decide⟩
  · have hcreated : Interner.Run (fun _ => 7) Platform.plainWindow
        (fun _ => Machine.Quiet Event.ofInterner) { store := ⟨.ofCap 1000, {}⟩ } []
        (.create 0x10000 .threeQuarters 1 none) { store := ⟨.ofCap 1000, {}⟩ } := .create _ _ _ _
    have hfailed := ((hcreated.perform (.intern [97]) rfl).perform .deinit rfl).perform
      (.intern [98]) rfl
    obtain ⟨⟨made, steps, traced, -⟩, hall⟩ :=
      trace_accounts.2.1 (Platform.plainWindow_silent _) hfailed
    exact ⟨made, steps, _, _, hall made steps traced, by decide, by decide⟩

end ArenaMemory
