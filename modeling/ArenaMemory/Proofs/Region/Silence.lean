import ArenaMemory.Proofs.Allocator.Silence
import ArenaMemory.Proofs.Region.Copy

namespace ArenaMemory

variable {σ : Type} {shown : Event → Bool}

namespace Region

variable {backing : Allocator σ} {region region' : Region} {machine machine' : Machine σ}
  {layout : Layout} {result : Option Word} {bytes : List UInt8} {align : Alignment}

section Hidden

variable (hidden : ∀ event : Event, event.ofRegion = true → shown event = false)
  (silent : backing.Silent shown)
include hidden silent

theorem quiet_alloc (ha : region.alloc backing layout machine = (result, region', machine')) :
    machine'.eventsOf shown = machine.eventsOf shown := by
  have houtcome := ha ▸ alloc_outcome backing region layout machine
  cases houtcome with
  | empty | carved => rfl
  | slow _ _ hg =>
    cases hg with
    | overflow | unplanned => rfl
    | limited => exact Machine.eventsOf_emit_hidden (hidden _ rfl)
    | denied _ _ hb => exact silent.alloc hb
    | wasted _ _ hb | served _ _ hb =>
      rw [Machine.eventsOf_emit_hidden (hidden _ rfl), silent.alloc hb]

theorem quiet_allocCopy
    (hc : region.allocCopy backing bytes align machine = (result, region', machine')) :
    machine'.eventsOf shown = machine.eventsOf shown := by
  have hcopying := hc ▸ copying backing region bytes align machine
  cases hcopying with
  | uncountable => rfl
  | refused _ ha | served _ ha =>
    have hquiet := quiet_alloc hidden silent ha
    exact hquiet

theorem quiet_allocZeroed
    (hz : region.allocZeroed backing layout machine = (result, region', machine')) :
    machine'.eventsOf shown = machine.eventsOf shown := by
  rw [allocZeroed] at hz
  rcases ha : region.alloc backing layout machine with ⟨_ | addr, grown, served⟩
  all_goals
    rw [ha] at hz
    obtain ⟨rfl, rfl, rfl⟩ := hz
    have hquiet := quiet_alloc hidden silent ha
    exact hquiet

theorem quiet_realloc {block : Option Word} {oldSize : Word}
    (hr : region.realloc backing block oldSize layout machine = (result, region', machine')) :
    machine'.eventsOf shown = machine.eventsOf shown := by
  cases block with
  | none => exact quiet_alloc hidden silent hr
  | some old =>
    rw [realloc] at hr
    split at hr
    · obtain ⟨rfl, rfl, rfl⟩ := hr
      rfl
    · rcases ha : region.alloc backing layout machine with ⟨_ | addr, grown, served⟩
      all_goals
        rw [ha] at hr
        obtain ⟨rfl, rfl, rfl⟩ := hr
        have hquiet := quiet_alloc hidden silent ha
        exact hquiet

theorem quiet_releaseChunks (chunks : List Chunk) :
    (releaseChunks backing chunks machine).eventsOf shown = machine.eventsOf shown := by
  induction chunks generalizing machine with
  | nil => rfl
  | cons chunk chunks ih =>
    have hstep : releaseChunks backing (chunk :: chunks) machine =
        releaseChunks backing chunks (backing.release chunk.start chunk.layout
          (machine.emit (.chunkReleased chunk.layout.size))) := rfl
    rw [hstep, ih, silent.release, Machine.eventsOf_emit_hidden (hidden _ rfl)]

theorem quiet_deinit : (region.deinit backing machine).2.eventsOf shown = machine.eventsOf shown :=
  quiet_releaseChunks hidden silent region.chunks

theorem quiet_reset : (region.reset backing machine).2.eventsOf shown = machine.eventsOf shown := by
  rw [reset]
  split
  · rfl
  · rw [Machine.eventsOf_emit_hidden (hidden _ rfl), quiet_releaseChunks hidden silent]

end Hidden

end Region

namespace Allocator

variable {backing : Allocator σ} {region? : σ → Option Region} {put : Region → σ → σ}
  {machine machine' : Machine σ} {result : Option Word}

theorem eventsOf_ofRegion_serve
    {request : Region → Machine σ → Option Word × Region × Machine σ}
    (hquiet : ∀ {region machine result region' machine'},
      request region machine = (result, region', machine') →
      machine'.eventsOf shown = machine.eventsOf shown)
    (hs : ofRegion.serve region? put request machine = (result, machine')) :
    machine'.eventsOf shown = machine.eventsOf shown := by
  unfold ofRegion.serve at hs
  split at hs
  · obtain ⟨-, rfl⟩ := Prod.mk.inj hs
    rfl
  next region _ =>
    rcases hr : request region machine with ⟨answer, region', served⟩
    rw [hr] at hs
    obtain ⟨-, rfl⟩ := Prod.mk.inj hs
    have hevents := hquiet hr
    exact hevents

theorem Silent.ofRegion (hidden : ∀ event : Event, event.ofRegion = true → shown event = false)
    (silent : backing.Silent shown) : (Allocator.ofRegion backing region? put).Silent shown where
  alloc := eventsOf_ofRegion_serve (Region.quiet_alloc hidden silent)
  release _ _ _ := rfl
  nativeRealloc := by
    intro _ hnative addr old new machine result machine' hr
    obtain rfl := Option.some.inj hnative
    exact eventsOf_ofRegion_serve (Region.quiet_realloc hidden silent) hr
  nativeZalloc := by
    intro _ hnative layout machine result machine' hz
    obtain rfl := Option.some.inj hnative
    exact eventsOf_ofRegion_serve (Region.quiet_allocZeroed hidden silent) hz

end Allocator

end ArenaMemory
