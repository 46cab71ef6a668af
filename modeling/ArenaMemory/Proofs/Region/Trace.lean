import ArenaMemory.Proofs.Allocator.Silence
import ArenaMemory.Proofs.Region.ChunkLedger
import ArenaMemory.Proofs.Region.SlowPath

namespace ArenaMemory

variable {σ : Type}

namespace Event

def ofChunk : Event → Bool
  | .chunkAcquired .. | .chunkReleased .. => true
  | _ => false

def chunksAfter? (sizes : Multiset Word) : Event → Option (Multiset Word)
  | .chunkAcquired size .. => some (size ::ₘ sizes)
  | .chunkReleased size => if size ∈ sizes then some (sizes.erase size) else none
  | _ => some sizes

end Event

/-- The sizes of the chunks that are there after events, the latest first, if none of them told of a
chunk that it went back and was not there. -/
def chunksFromTrace? : List Event → Option (Multiset Word)
  | [] => some 0
  | event :: earlier => (chunksFromTrace? earlier).bind fun sizes => event.chunksAfter? sizes

def Call.isDenied : Call → Bool
  | .alloc _ none => true
  | _ => false

/-- The event tells of the call: a chunk was asked for and obtained, or one was given back. -/
inductive EventOfCall : Event → Call → Prop where
  | acquired (layout : Layout) (addr watermark : Word) :
      EventOfCall (.chunkAcquired layout.size layout.align.bytes watermark) (.alloc layout (some addr))
  | released (grant : Grant) : EventOfCall (.chunkReleased grant.layout.size) (.release grant)

/-- The events of chunks and the calls that were not denied belong together, in the same order. -/
def EventsOfCalls (events : List Event) (calls : List Call) : Prop :=
  List.Forall₂ EventOfCall (events.filter Event.ofChunk) (calls.filter fun call => !call.isDenied)

theorem EventsOfCalls.append {events events' : List Event} {calls calls' : List Call}
    (h : EventsOfCalls events calls) (h' : EventsOfCalls events' calls') :
    EventsOfCalls (events ++ events') (calls ++ calls') := by
  rw [EventsOfCalls, List.filter_append, List.filter_append]
  exact List.rel_append h h'

def releaseEvents (chunks : List Chunk) : List Event :=
  (chunks.map fun chunk => Event.chunkReleased chunk.layout.size).reverse

def chunkSizes (chunks : List Chunk) : Multiset Word :=
  (chunks.map fun chunk => chunk.layout.size : List Word)

theorem chunkSizes_cons (chunk : Chunk) (chunks : List Chunk) :
    chunkSizes (chunk :: chunks) = chunk.layout.size ::ₘ chunkSizes chunks := rfl

theorem eventsOfCalls_release (chunks : List Chunk) :
    EventsOfCalls (releaseEvents chunks) (releaseCalls chunks) := by
  induction chunks with
  | nil => exact .nil
  | cons chunk chunks ih =>
    have hone : EventsOfCalls [.chunkReleased chunk.layout.size] [.release chunk.grant] :=
      .cons (.released chunk.grant) .nil
    rw [releaseEvents, releaseCalls, List.map_cons, List.map_cons, List.reverse_cons,
      List.reverse_cons]
    exact ih.append hone

theorem chunksFromTrace?_release {chunks : List Chunk} {sizes : Multiset Word} {earlier : List Event}
    (h : chunksFromTrace? earlier = some (chunkSizes chunks + sizes)) :
    chunksFromTrace? (releaseEvents chunks ++ earlier) = some sizes := by
  induction chunks generalizing earlier with
  | nil => exact h.trans (congrArg some (Multiset.zero_add sizes))
  | cons chunk chunks ih =>
    rw [releaseEvents, List.map_cons, List.reverse_cons, List.append_assoc]
    apply ih
    rw [List.singleton_append, chunksFromTrace?, h, Option.bind_some, chunkSizes_cons,
      Multiset.cons_add, Event.chunksAfter?, if_pos (Multiset.mem_cons_self _ _),
      Multiset.erase_cons_head]

namespace Region

/-- The event of a request that the limit refuses: the newest chunk has no room for it, and what it
needs is a word but more than the limit leaves. -/
def limitRefusal? (region : Region) (layout : Layout) : Option Event :=
  region.limit.bind fun limit =>
    if layout.size ≠ 0 ∧ region.bump? layout = none ∧
        roundUp (region.bytesFor layout) 16 < 2 ^ 64 ∧
        region.leftOf limit < roundUp (region.bytesFor layout) 16 then
      some (.limitReached layout.size limit region.allocated)
    else none

def acquired? (before after : Region) : Option Event :=
  if before.chunks.length < after.chunks.length then
    some (.chunkAcquired after.current.layout.size after.current.layout.align.bytes after.allocated)
  else none

structure TracedOperation where
  op : Operation
  before : Region
  result : Option Word
  after : Region
  calls : List Call

namespace TracedOperation

def returned (step : TracedOperation) : List Chunk :=
  match step.op with
  | .reset => step.before.chunks.tail
  | .deinit => step.before.chunks
  | _ => []

def rewound? (step : TracedOperation) : Option Event :=
  match step.op with
  | .reset => if step.before.chunks = [] then none else some (.regionReset step.after.allocated)
  | _ => none

def limited? (step : TracedOperation) : Option Event :=
  step.op.request?.bind step.before.limitRefusal?

def events (step : TracedOperation) : List Event :=
  step.rewound?.toList ++ releaseEvents step.returned ++
    (acquired? step.before step.after).toList ++ step.limited?.toList

end TracedOperation

/-- The runs of a region, with their steps, the latest first. Others may call the
allocator, but tell nothing of a region. -/
inductive TracedRun (inner : Allocator σ) (minAlign : Word) (start : Machine (Recorded σ)) :
    List TracedOperation → Region → Machine (Recorded σ) → Prop where
  | create {anchor region} : Region.create anchor minAlign = .ok region →
      TracedRun inner minAlign start [] region start
  | perform {steps region machine result region' machine' calls} (op : Operation) :
      TracedRun inner minAlign start steps region machine →
      op.perform inner.recorded region machine = (result, region', machine') →
      machine'.store.calls = calls ++ machine.store.calls →
      TracedRun inner minAlign start (⟨op, region, result, region', calls⟩ :: steps) region' machine'
  | others {steps region machine machine'} :
      TracedRun inner minAlign start steps region machine →
      Machine.Quiet Event.ofRegion machine machine' →
      TracedRun inner minAlign start steps region machine'

section Refusal

variable {region : Region} {layout : Layout} {limit allocated : Word} {event : Event}

/-- The slow path gives the limit as the reason just when the need is a word that it does not leave.
-/
theorem nextUsable_eq_limit : region.nextUsable layout = .error (.limit limit allocated) ↔
    region.limit = some limit ∧ allocated = region.allocated ∧
      roundUp (region.bytesFor layout) 16 < 2 ^ 64 ∧
      region.leftOf limit < roundUp (region.bytesFor layout) 16 := by
  have hsixteen : chunkAlign.bytes.toNat = 16 := rfl
  constructor
  · intro hn
    rw [nextUsable] at hn
    cases hneed : region.need? layout with
    | none => simp [hneed] at hn
    | some need =>
      cases hlimit : region.limit with
      | none => simp [hneed, hlimit] at hn
      | some most =>
        simp only [hneed, hlimit] at hn
        split at hn
        · cases hn
        cases hup : Word.checkedAlignUp need chunkAlign.bytes with
        | none => simp [hup] at hn
        | some up =>
          have hu := Word.checkedAlignUp_eq_some.1 hup
          rw [need?_eq_some.1 hneed, hsixteen] at hu
          simp only [hup] at hn
          split at hn
          next hlt =>
            obtain ⟨rfl, rfl⟩ := ChunkRefusal.limit.inj (Except.error.inj hn)
            rw [UInt64.lt_iff_toNat_lt, hu, Word.toNat_saturatingSub] at hlt
            exact ⟨rfl, rfl, hu ▸ up.toNat_lt, hlt⟩
          · cases hn
  · rintro ⟨hlimit, rfl, hword, hlt⟩
    have hwish := region.le_wished layout
    have hdvd : 16 ∣ roundUp (region.bytesFor layout) 16 := dvd_roundUp
    have hplan : Plan region layout limit _ := plan hlimit
    generalize region.nextUsable layout = planned at hplan
    cases hplan with
    | overflow hover => omega
    | refused => rfl
    | doubled husable hle => omega
    | shrunk hfits => omega

theorem limitRefusal?_eq_some : region.limitRefusal? layout = some event ↔
    layout.size ≠ 0 ∧ region.bump? layout = none ∧
      ∃ limit, region.nextUsable layout = .error (.limit limit region.allocated) ∧
        event = .limitReached layout.size limit region.allocated := by
  rw [limitRefusal?, Option.bind_eq_some_iff]
  constructor
  · rintro ⟨limit, hlimit, hevent⟩
    split at hevent
    next h =>
      obtain ⟨hsize, hfull, hword, hlt⟩ := h
      have hn := nextUsable_eq_limit.2 ⟨hlimit, rfl, hword, hlt⟩
      exact ⟨hsize, hfull, limit, hn, (Option.some.inj hevent).symm⟩
    · cases hevent
  · rintro ⟨hsize, hfull, limit, hn, rfl⟩
    obtain ⟨hlimit, -, hword, hlt⟩ := nextUsable_eq_limit.1 hn
    exact ⟨limit, hlimit, if_pos ⟨hsize, hfull, hword, hlt⟩⟩

theorem limitRefusal?_eq_none (h : layout.size = 0 ∨ region.bump? layout ≠ none ∨
    ∀ limit, region.nextUsable layout ≠ .error (.limit limit region.allocated)) :
    region.limitRefusal? layout = none := by
  rw [Option.eq_none_iff_forall_ne_some]
  intro event hevent
  obtain ⟨hsize, hfull, limit, hn, -⟩ := limitRefusal?_eq_some.1 hevent
  obtain hzero | hroom | hnot := h
  · exact hsize hzero
  · exact hroom hfull
  · exact hnot limit hn

theorem alloc_limited {backing : Allocator σ} {machine : Machine σ}
    (h : region.limitRefusal? layout = some event) :
    region.alloc backing layout machine = (none, region, machine.emit event) := by
  obtain ⟨hsize, hfull, limit, hn, rfl⟩ := limitRefusal?_eq_some.1 h
  rw [alloc_eq_allocSlow (UInt64.pos_iff_ne_zero.2 hsize) hfull, allocSlow, hn]

theorem alloc_quiet {backing : Allocator σ} {region' : Region} {machine machine' : Machine σ}
    {result : Option Word} (hserved : layout.size = 0 ∨ region.bump? layout ≠ none)
    (ha : region.alloc backing layout machine = (result, region', machine')) :
    region'.chunks.length = region.chunks.length ∧ machine' = machine := by
  have houtcome := ha ▸ alloc_outcome backing region layout machine
  cases houtcome with
  | empty => exact ⟨rfl, rfl⟩
  | carved => exact ⟨length_setCurrent _, rfl⟩
  | slow hsize hc =>
    obtain hzero | hroom := hserved
    · exact absurd hzero hsize
    · exact absurd (bump?_eq_none.2 hc) hroom

end Refusal

theorem acquired?_same {before after : Region}
    (h : after.chunks.length ≤ before.chunks.length) : acquired? before after = none :=
  if_neg (Nat.not_lt.2 h)

theorem acquired?_push {before : Region} {chunk : Chunk} : acquired? before (before.push chunk) =
    some (.chunkAcquired chunk.layout.size chunk.layout.align.bytes chunk.watermark) :=
  if_pos (Nat.lt_succ_self _)

theorem chunkSizes_bump {region : Region} (addr : Word) :
    chunkSizes (region.setCurrent { region.current with bump := addr }).chunks =
      chunkSizes region.chunks := by
  unfold setCurrent current
  split
  · rfl
  next hchunks => rw [hchunks]; rfl

section Step

variable {inner : Allocator σ} {before after after' region region' : Region}
  {machine machine' machine'' : Machine (Recorded σ)} {events events' : List Event}
  {layout : Layout} {result : Option Word} {op : Operation} {calls : List Call}

/-- The events are what the region's part of the trace has more, belong to the calls that were made,
and lead from the sizes of the chunks before to those after. -/
structure ChunkEvents (before : List Chunk) (machine : Machine (Recorded σ)) (events : List Event)
    (after : List Chunk) (machine' : Machine (Recorded σ)) : Prop where
  events_eq : machine'.eventsOf Event.ofRegion = events ++ machine.eventsOf Event.ofRegion
  calls : ∃ newer, machine'.store.calls = newer ++ machine.store.calls ∧ EventsOfCalls events newer
  chunks : ∀ earlier, chunksFromTrace? earlier = some (chunkSizes before) →
    chunksFromTrace? (events ++ earlier) = some (chunkSizes after)

theorem ChunkEvents.same {before after : List Chunk}
    (hsizes : chunkSizes after = chunkSizes before)
    (hevents : machine'.eventsOf Event.ofRegion = machine.eventsOf Event.ofRegion)
    (hcalls : machine'.store.calls = machine.store.calls) :
    ChunkEvents before machine [] after machine' :=
  ⟨hevents, ⟨[], hcalls, .nil⟩, fun _ h => hsizes ▸ h⟩

theorem ChunkEvents.trans {before between after : List Chunk}
    (h : ChunkEvents before machine events between machine')
    (h' : ChunkEvents between machine' events' after machine'') :
    ChunkEvents before machine (events' ++ events) after machine'' := by
  obtain ⟨newer, hcalls, hpaired⟩ := h.calls
  obtain ⟨newest, hcalls', hpaired'⟩ := h'.calls
  refine ⟨?_, ⟨newest ++ newer, ?_, hpaired'.append hpaired⟩, fun earlier hsizes => ?_⟩
  · rw [h'.events_eq, h.events_eq, List.append_assoc]
  · rw [hcalls', hcalls, List.append_assoc]
  · rw [List.append_assoc]
    exact h'.chunks _ (h.chunks _ hsizes)

theorem eventsOf_releaseChunks (silent : inner.Silent Event.ofRegion) (chunks : List Chunk) :
    (releaseChunks inner.recorded chunks machine).eventsOf Event.ofRegion =
      releaseEvents chunks ++ machine.eventsOf Event.ofRegion := by
  induction chunks generalizing machine with
  | nil => rfl
  | cons chunk chunks ih =>
    have hstep : releaseChunks inner.recorded (chunk :: chunks) machine =
        releaseChunks inner.recorded chunks (inner.recorded.release chunk.start chunk.layout
          (machine.emit (.chunkReleased chunk.layout.size))) := rfl
    rw [hstep, ih, silent.recorded.release, Machine.eventsOf_emit_shown rfl, releaseEvents,
      releaseEvents, List.map_cons, List.reverse_cons, List.append_assoc, List.singleton_append]

theorem chunkEvents_release (silent : inner.Silent Event.ofRegion) (kept chunks : List Chunk) :
    ChunkEvents (kept ++ chunks) machine (releaseEvents chunks) kept
      (releaseChunks inner.recorded chunks machine) := by
  refine ⟨eventsOf_releaseChunks silent chunks,
    ⟨_, releaseChunks_calls chunks, eventsOfCalls_release chunks⟩,
    fun earlier h => chunksFromTrace?_release ?_⟩
  rw [h, chunkSizes, List.map_append, ← Multiset.coe_add, add_comm]
  rfl

theorem chunkEvents_emit {before after : List Chunk} {event : Event}
    (hsizes : chunkSizes after = chunkSizes before) (hregion : event.ofRegion = true)
    (hchunk : event.ofChunk = false) :
    ChunkEvents before machine [event] after (machine.emit event) := by
  refine ⟨Machine.eventsOf_emit_shown hregion, ⟨[], rfl, ?_⟩, fun earlier h => ?_⟩
  · rw [EventsOfCalls, List.filter_cons_of_neg (by simp [hchunk])]
    exact .nil
  · have hsame : event.chunksAfter? (chunkSizes before) = some (chunkSizes before) := by
      cases event with
      | chunkAcquired | chunkReleased => cases hchunk
      | _ => rfl
    rw [List.singleton_append, chunksFromTrace?, h, Option.bind_some, hsame, hsizes]

theorem chunkEvents_push (silent : inner.Silent Event.ofRegion) {chunk : Chunk} {start : Word}
    {chunks : List Chunk} (ha : inner.recorded.alloc chunk.layout machine = (some start, machine')) :
    ChunkEvents chunks machine
      [.chunkAcquired chunk.layout.size chunk.layout.align.bytes chunk.watermark] (chunk :: chunks)
      (machine'.emit
        (.chunkAcquired chunk.layout.size chunk.layout.align.bytes chunk.watermark)) := by
  refine ⟨?_, ⟨[.alloc chunk.layout (some start)], ?_, .cons (.acquired _ _ _) .nil⟩,
    fun earlier h => ?_⟩
  · rw [Machine.eventsOf_emit_shown rfl, silent.recorded.alloc ha, List.singleton_append]
  · obtain ⟨hanswer, rfl⟩ := Prod.mk.inj ha
    rw [← hanswer]
    rfl
  · rw [List.singleton_append, chunksFromTrace?, h, Option.bind_some]
    rfl

theorem chunkEvents_denied (silent : inner.Silent Event.ofRegion) {chunks : List Chunk}
    (ha : inner.recorded.alloc layout machine = (none, machine')) :
    ChunkEvents chunks machine [] chunks machine' := by
  refine ⟨silent.recorded.alloc ha, ⟨[.alloc layout none], ?_, .nil⟩, fun earlier h => h⟩
  obtain ⟨hanswer, rfl⟩ := Prod.mk.inj ha
  rw [← hanswer]
  rfl

/-- A request tells of the chunk that it obtains, or of the limit that refuses one, and of nothing
else. -/
theorem chunkEvents_alloc (silent : inner.Silent Event.ofRegion)
    (ha : region.alloc inner.recorded layout machine = (result, region', machine')) :
    ChunkEvents region.chunks machine
      ((acquired? region region').toList ++ (region.limitRefusal? layout).toList) region'.chunks
      machine' := by
  have houtcome := ha ▸ alloc_outcome inner.recorded region layout machine
  cases houtcome with
  | empty hsize =>
    rw [acquired?_same (Nat.le_refl _), limitRefusal?_eq_none (.inl hsize)]
    exact .same rfl rfl rfl
  | carved _ hc =>
    have hroom : region.bump? layout ≠ none := by simp [bump?_eq_none, hc]
    rw [acquired?_same (Nat.le_of_eq (length_setCurrent _)),
      limitRefusal?_eq_none (.inr (.inl hroom))]
    exact .same (chunkSizes_bump _) rfl rfl
  | slow hsize hc hg =>
    cases hg with
    | overflow hn =>
      rw [acquired?_same (Nat.le_refl _), limitRefusal?_eq_none (.inr (.inr (by simp [hn])))]
      exact .same rfl rfl rfl
    | limited hn =>
      obtain ⟨-, rfl, -⟩ := nextUsable_eq_limit.1 hn
      rw [acquired?_same (Nat.le_refl _),
        limitRefusal?_eq_some.2 ⟨hsize, bump?_eq_none.2 hc, _, hn, rfl⟩]
      exact chunkEvents_emit rfl rfl rfl
    | unplanned hn =>
      rw [acquired?_same (Nat.le_refl _), limitRefusal?_eq_none (.inr (.inr (by simp [hn])))]
      exact .same rfl rfl rfl
    | denied hn _ hb =>
      rw [acquired?_same (Nat.le_refl _), limitRefusal?_eq_none (.inr (.inr (by simp [hn])))]
      exact chunkEvents_denied silent hb
    | wasted hn hp hb | served hn hp hb =>
      obtain ⟨-, halign, -⟩ := Chunk.plan?_eq_some.1 hp
      rw [acquired?_push, limitRefusal?_eq_none (.inr (.inr (by simp [hn]))), ← halign]
      exact chunkEvents_push silent hb

theorem perform_unrequested (hop : op.request? = none) (hkeeps : op.forgets = false)
    (hp : op.perform inner.recorded region machine = (result, region', machine')) :
    region'.chunks = region.chunks ∧ ∃ memory, machine' = { machine with memory } := by
  have hperformed := hp ▸ performed op inner.recorded region machine
  cases hperformed with
  | declined => exact ⟨rfl, _, rfl⟩
  | @requested _ layout _ _ _ memory _ hlayout ha =>
    have hsize : layout.size = 0 := by
      by_contra hne
      have hasked := Operation.request?_of_pos hlayout (UInt64.pos_iff_ne_zero.2 hne)
      rw [hop] at hasked
      cases hasked
    rw [alloc_empty hsize] at ha
    obtain ⟨-, rfl, rfl⟩ := ha
    exact ⟨rfl, memory, rfl⟩
  | limited => exact ⟨rfl, _, rfl⟩
  | reset | deinit => cases hkeeps

namespace TracedOperation

variable {step : TracedOperation}

theorem events_of_keeps (hkeeps : step.op.forgets = false) :
    step.events = (acquired? step.before step.after).toList ++ step.limited?.toList := by
  obtain ⟨op, before, answer, after, calls⟩ := step
  cases op with
  | reset | deinit => cases hkeeps
  | _ => rfl

theorem events_of_forgets (hforgets : step.op.forgets = true)
    (hle : step.after.chunks.length ≤ step.before.chunks.length) :
    step.events = step.rewound?.toList ++ releaseEvents step.returned := by
  have hlimited : step.limited? = none := by
    obtain ⟨op, before, answer, after, calls⟩ := step
    cases op with
    | reset | deinit => rfl
    | _ => cases hforgets
  rw [events, acquired?_same hle, hlimited, Option.toList_none, List.append_nil, List.append_nil]

end TracedOperation

theorem chunkEvents_reset (silent : inner.Silent Event.ofRegion)
    (hr : region.reset inner.recorded machine = (region', machine')) :
    ChunkEvents region.chunks machine (TracedOperation.events ⟨.reset, region, none, region', calls⟩)
      region'.chunks machine' := by
  rw [TracedOperation.events_of_forgets rfl (length_reset_le hr), TracedOperation.rewound?,
    TracedOperation.returned]
  rw [reset] at hr
  split at hr
  next hchunks =>
    obtain ⟨rfl, rfl⟩ := hr
    rw [if_pos hchunks, hchunks]
    exact .same rfl rfl rfl
  next newest older hchunks =>
    obtain ⟨rfl, rfl⟩ := hr
    rw [if_neg (by simp [hchunks]), hchunks]
    exact (chunkEvents_release silent [newest] older).trans (chunkEvents_emit rfl rfl rfl)

theorem chunkEvents_perform (calls : List Call) (silent : inner.Silent Event.ofRegion)
    (hp : op.perform inner.recorded region machine = (result, region', machine')) :
    ChunkEvents region.chunks machine (TracedOperation.events ⟨op, region, result, region', calls⟩)
      region'.chunks machine' := by
  by_cases hforgets : op.forgets = true
  · have hperformed := hp ▸ performed op inner.recorded region machine
    cases hperformed with
    | declined hnot | requested _ hnot => simp [hnot] at hforgets
    | limited => cases hforgets
    | reset hr => exact chunkEvents_reset silent hr
    | deinit hd =>
      obtain ⟨rfl, rfl⟩ := Prod.mk.inj hd
      rw [TracedOperation.events_of_forgets rfl (Nat.zero_le _)]
      exact chunkEvents_release silent [] region.chunks
  · have hkeeps : op.forgets = false := Bool.eq_false_of_not_eq_true hforgets
    rw [TracedOperation.events_of_keeps hkeeps]
    cases hop : op.request? with
    | none =>
      obtain ⟨hchunks, memory, rfl⟩ := perform_unrequested hop hkeeps hp
      rw [acquired?_same (Nat.le_of_eq (congrArg List.length hchunks)), TracedOperation.limited?,
        hop, hchunks]
      exact .same rfl rfl rfl
    | some layout =>
      obtain ⟨served, memory, ha, rfl⟩ := alloc_of_perform hop hp
      have hchunkEvents := chunkEvents_alloc silent ha
      rw [TracedOperation.limited?, hop, Option.bind_some]
      exact ⟨hchunkEvents.events_eq, hchunkEvents.calls, hchunkEvents.chunks⟩

end Step

/-- The machine that a region starts from: with its own storage obtained, if it is to have any. -/
def Begins (backing : Allocator σ) (home : Option Word) (start begun : Machine σ) : Prop :=
  match home with
  | none => begun = start
  | some addr =>
    backing.box Object.regionLayout (fun _ memory => memory) start = (some addr, begun)

section Narration

variable {inner : Allocator σ} {minAlign : Word} {start machine machine' : Machine (Recorded σ)}
  {region : Region} {steps : List TracedOperation} {step : TracedOperation} {home : Option Word}
  {blocks : List Grant}

theorem Run.traced (silent : inner.Silent Event.ofRegion)
    (run : Run inner.recorded (fun _ => Machine.Quiet Event.ofRegion) minAlign start home blocks
      region machine) :
    ∃ begun steps, Begins inner.recorded home start begun ∧
      TracedRun inner minAlign begun steps region machine := by
  induction run with
  | create hc => exact ⟨_, _, rfl, .create hc⟩
  | box hc hb => exact ⟨_, _, hb, .create hc⟩
  | perform op _ hp ih =>
    obtain ⟨begun, steps, hbegins, traced⟩ := ih
    obtain ⟨calls, hcalls, -⟩ := (chunkEvents_perform [] silent hp).calls
    exact ⟨begun, _, hbegins, traced.perform op hp hcalls⟩
  | others _ ho ih =>
    obtain ⟨begun, steps, hbegins, traced⟩ := ih
    exact ⟨begun, steps, hbegins, traced.others ho⟩

theorem TracedRun.performed (traced : TracedRun inner minAlign start steps region machine)
    (hstep : step ∈ steps) : ∃ before after,
      step.op.perform inner.recorded step.before before = (step.result, step.after, after) := by
  induction traced with
  | create => cases hstep
  | perform op _ hp _ ih =>
    obtain rfl | hstep := List.mem_cons.1 hstep
    · exact ⟨_, _, hp⟩
    · exact ih hstep
  | others _ _ ih => exact ih hstep

theorem TracedOperation.events_quiet (hkeeps : step.op.forgets = false)
    (hserved : ∀ layout, step.op.request? = some layout →
      layout.size = 0 ∨ step.before.bump? layout ≠ none)
    (hp : step.op.perform inner.recorded step.before machine = (step.result, step.after, machine')) :
    step.events = [] := by
  suffices h : step.after.chunks.length = step.before.chunks.length ∧ step.limited? = none by
    rw [events_of_keeps hkeeps, acquired?_same (Nat.le_of_eq h.1), h.2]
    rfl
  rw [limited?]
  cases hop : step.op.request? with
  | none =>
    obtain ⟨hchunks, -⟩ := perform_unrequested hop hkeeps hp
    exact ⟨congrArg List.length hchunks, rfl⟩
  | some layout =>
    have hroom := hserved layout hop
    obtain ⟨served, memory, ha, -⟩ := alloc_of_perform hop hp
    obtain ⟨hlength, -⟩ := alloc_quiet hroom ha
    exact ⟨hlength, limitRefusal?_eq_none (hroom.imp_right .inl)⟩

theorem TracedOperation.refused_of_limited (hlimited : step.limited? ≠ none)
    (hp : step.op.perform inner.recorded step.before machine = (step.result, step.after, machine')) :
    step.result = none ∧ step.after = step.before := by
  obtain ⟨event, hevent⟩ := Option.ne_none_iff_exists'.1 hlimited
  obtain ⟨layout, hop, hrefusal⟩ := Option.bind_eq_some_iff.1 hevent
  obtain ⟨served, memory, ha, -⟩ := alloc_of_perform hop hp
  rw [alloc_limited hrefusal] at ha
  obtain ⟨hresult, hrest⟩ := Prod.mk.inj ha
  exact ⟨hresult.symm, (Prod.mk.inj hrest).1.symm⟩

theorem chunkCount_eq_card (region : Region) :
    region.stats.chunkCount = (chunkSizes region.chunks).card := by
  rw [chunkSizes, Multiset.coe_card, List.length_map]
  rfl

theorem bytesOut_eq_sum (region : Region) :
    bytesOut region.grants = ((chunkSizes region.chunks).map UInt64.toNat).sum := by
  rw [bytesOut_grants, chunkSizes, Multiset.map_coe, Multiset.sum_coe, List.map_map]
  rfl

theorem TracedRun.events_eq (silent : inner.Silent Event.ofRegion)
    (traced : TracedRun inner minAlign start steps region machine) :
    machine.eventsOf Event.ofRegion =
      steps.flatMap TracedOperation.events ++ start.eventsOf Event.ofRegion := by
  induction traced with
  | create => rfl
  | perform op _ hp _ ih =>
    rw [(chunkEvents_perform _ silent hp).events_eq, ih, List.flatMap_cons, List.append_assoc]
  | others _ ho ih => exact ho.trans ih

theorem TracedRun.eventsOfCalls (silent : inner.Silent Event.ofRegion)
    (traced : TracedRun inner minAlign start steps region machine) :
    EventsOfCalls (steps.flatMap TracedOperation.events) (steps.flatMap TracedOperation.calls) := by
  induction traced with
  | create => exact .nil
  | perform op _ hp hcalls ih =>
    obtain ⟨newer, hnewer, hpaired⟩ := (chunkEvents_perform _ silent hp).calls
    obtain rfl := List.append_cancel_right (hcalls.symm.trans hnewer)
    exact hpaired.append ih
  | others _ _ ih => exact ih

theorem TracedRun.chunks (silent : inner.Silent Event.ofRegion)
    (traced : TracedRun inner minAlign start steps region machine) :
    chunksFromTrace? (steps.flatMap TracedOperation.events) = some (chunkSizes region.chunks) := by
  induction traced with
  | create hc =>
    rw [chunks_of_create hc]
    rfl
  | perform op _ hp _ ih =>
    rw [List.flatMap_cons]
    exact (chunkEvents_perform _ silent hp).chunks _ ih
  | others _ _ ih => exact ih

/-- The events of a region account for its state: those of chunks are, in order, the calls that were
not denied. The number of its chunks and their bytes can be recovered from them alone. -/
structure TraceAgrees (start : Machine (Recorded σ)) (steps : List TracedOperation) (region : Region)
    (machine : Machine (Recorded σ)) : Prop where
  events : machine.eventsOf Event.ofRegion =
    steps.flatMap TracedOperation.events ++ start.eventsOf Event.ofRegion
  calls : EventsOfCalls (steps.flatMap TracedOperation.events) (steps.flatMap TracedOperation.calls)
  chunks : ∃ sizes, chunksFromTrace? (steps.flatMap TracedOperation.events) = some sizes ∧
    region.stats.chunkCount = sizes.card ∧ bytesOut region.grants = (sizes.map UInt64.toNat).sum
  quiet : ∀ step ∈ steps, step.op.forgets = false →
    (∀ layout, step.op.request? = some layout →
      layout.size = 0 ∨ step.before.bump? layout ≠ none) → step.events = []
  refused : ∀ step ∈ steps, step.limited? ≠ none →
    step.result = none ∧ step.after = step.before

theorem TracedRun.traceAgrees (silent : inner.Silent Event.ofRegion)
    (traced : TracedRun inner minAlign start steps region machine) :
    TraceAgrees start steps region machine := by
  refine ⟨traced.events_eq silent, traced.eventsOfCalls silent,
    ⟨_, traced.chunks silent, chunkCount_eq_card region, bytesOut_eq_sum region⟩, ?_, ?_⟩
  · intro step hstep hkeeps hserved
    obtain ⟨before, after, hp⟩ := traced.performed hstep
    exact step.events_quiet hkeeps hserved hp
  · intro step hstep hlimited
    obtain ⟨before, after, hp⟩ := traced.performed hstep
    exact step.refused_of_limited hlimited hp

end Narration

end Region

end ArenaMemory
