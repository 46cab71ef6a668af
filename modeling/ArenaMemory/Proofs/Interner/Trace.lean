import ArenaMemory.Proofs.Interner.Doubling
import ArenaMemory.Proofs.Interner.Presizing
import ArenaMemory.Proofs.Region.Silence

namespace ArenaMemory

variable {σ : Type}

namespace Event

def isFailure : Event → Bool
  | .internFailed .. => true
  | _ => false

def capacityAfter? (buffer : GrownBuffer) (capacity : Nat) : Event → Option Nat
  | .bufferGrew grown before after =>
    if grown ≠ buffer then some capacity else if before = capacity then some after else none
  | _ => some capacity

end Event

/-- The capacity of a buffer after events, the latest first, if its growths form a chain that starts
from `first`. -/
def capacityFromTrace? (buffer : GrownBuffer) (first : Nat) : List Event → Option Nat
  | [] => some first
  | event :: earlier =>
    (capacityFromTrace? buffer first earlier).bind fun capacity => event.capacityAfter? buffer capacity

theorem capacityFromTrace?_append {buffer : GrownBuffer} {first : Nat} (newer earlier : List Event) :
    capacityFromTrace? buffer first (newer ++ earlier) =
      (capacityFromTrace? buffer first earlier).bind fun capacity =>
        capacityFromTrace? buffer capacity newer := by
  induction newer with
  | nil => exact (Option.bind_fun_some _).symm
  | cons event newer ih =>
    rw [List.cons_append, capacityFromTrace?, ih, Option.bind_assoc]
    rfl

/-- The capacity that the next growth of a table starts from. Its first array is not told of. -/
def SymbolTable.grownFrom (table : SymbolTable) : Nat :=
  if table.capacity = 0 then table.initialCapacity else table.capacity

namespace Interner

def Answer.failure? : Answer → Option InternFailure
  | .symbol (.error failure) | .symbols (.error failure) => some failure
  | _ => none

/-- The events of a failure to intern: one with the length and the reason, or none. -/
inductive FailureEvents (items : List (List UInt8)) : Option InternFailure → List Event → Prop where
  | nothing : FailureEvents items none []
  | failed {item} (failure : InternFailure) : item ∈ items →
      FailureEvents items (some failure) [.internFailed item.length failure]

structure TracedOperation where
  op : Operation
  answer : Answer
  events : List Event

/-- The capacity of a buffer after a step. Where all memory is given back, its growths start anew.
-/
def TracedOperation.capacityAfter? (buffer : GrownBuffer) (first : Nat) (step : TracedOperation)
    (capacity : Nat) : Option Nat :=
  (capacityFromTrace? buffer capacity step.events).map fun grown =>
    match step.op with
    | .deinit => first
    | _ => grown

def capacityAt? (buffer : GrownBuffer) (first : Nat) (made : List Event) :
    List TracedOperation → Option Nat
  | [] => capacityFromTrace? buffer first made
  | step :: earlier =>
    (capacityAt? buffer first made earlier).bind (step.capacityAfter? buffer first)

/-- The runs of an interner, with the events of its creation and its steps, the latest first. -/
inductive TracedRun (contentHash : ContentHash) (allocator : Allocator σ) (start : Machine σ) :
    List Event → List TracedOperation → Interner → Machine σ → Prop where
  | create (anchor loadFactor capacity arenaLimit) :
      TracedRun contentHash allocator start [] []
        (.create anchor loadFactor capacity arenaLimit) start
  | presize {anchor loadFactor capacity arenaLimit interner machine made} :
      (Interner.create anchor loadFactor capacity arenaLimit).presize allocator capacity start =
        (.ok interner, machine) →
      machine.eventsOf Event.ofInterner = made ++ start.eventsOf Event.ofInterner →
      TracedRun contentHash allocator start made [] interner machine
  | perform {made steps interner machine answer interner' machine' events} (op : Operation) :
      TracedRun contentHash allocator start made steps interner machine →
      op.perform contentHash allocator interner machine = (answer, interner', machine') →
      machine'.eventsOf Event.ofInterner = events ++ machine.eventsOf Event.ofInterner →
      TracedRun contentHash allocator start made (⟨op, answer, events⟩ :: steps) interner'
        machine'
  | others {made steps interner machine machine'} :
      TracedRun contentHash allocator start made steps interner machine →
      Machine.Quiet Event.ofInterner machine machine' →
      TracedRun contentHash allocator start made steps interner machine'

variable {allocator : Allocator σ} {contentHash : ContentHash}
  {interner interner' interner'' : Interner} {machine machine' machine'' : Machine σ}
  {events events' : List Event} {table : SymbolTable} {map : SymbolMap} {arena : Region}
  {done : Except InternFailure Unit} {additional capacity : Nat} {hash : UInt64}
  {bytes : List UInt8} {items : List (List UInt8)} {op : Operation} {answer : Answer}
  {addr? : Option Word} {failure? : Option InternFailure}

/-- The table and the map grew as the events tell, which tell of nothing else. -/
structure GrowthEvents (interner : Interner) (events : List Event) (interner' : Interner) : Prop where
  growths : ∀ event ∈ events, event.isFailure = false
  initial_eq : interner'.table.initialCapacity = interner.table.initialCapacity
  slots : capacityFromTrace? .map interner.map.capacity events = some interner'.map.capacity
  entries : capacityFromTrace? .table interner.table.grownFrom events = some interner'.table.grownFrom

theorem GrowthEvents.same (hinitial : interner'.table.initialCapacity = interner.table.initialCapacity)
    (hslots : interner'.map.capacity = interner.map.capacity)
    (hentries : interner'.table.capacity = interner.table.capacity) :
    GrowthEvents interner [] interner' := by
  refine ⟨by simp, hinitial, congrArg some hslots.symm, congrArg some ?_⟩
  rw [SymbolTable.grownFrom, SymbolTable.grownFrom, hinitial, hentries]

theorem GrowthEvents.trans (h : GrowthEvents interner events interner')
    (h' : GrowthEvents interner' events' interner'') :
    GrowthEvents interner (events' ++ events) interner'' := by
  refine ⟨fun event hevent => ?_, h'.initial_eq.trans h.initial_eq, ?_, ?_⟩
  · obtain hnewer | holder := List.mem_append.1 hevent
    · exact h'.growths event hnewer
    · exact h.growths event holder
  · rw [capacityFromTrace?_append, h.slots, Option.bind_some, h'.slots]
  · rw [capacityFromTrace?_append, h.entries, Option.bind_some, h'.entries]

/-- Both buffers grew, and that is all that the trace has more. -/
def GrowthTraced (interner : Interner) (machine : Machine σ) (interner' : Interner)
    (machine' : Machine σ) : Prop :=
  ∃ events, GrowthEvents interner events interner' ∧
    machine'.eventsOf Event.ofInterner = events ++ machine.eventsOf Event.ofInterner

theorem GrowthTraced.trans (h : GrowthTraced interner machine interner' machine')
    (h' : GrowthTraced interner' machine' interner'' machine'') :
    GrowthTraced interner machine interner'' machine'' := by
  obtain ⟨events, hgrowth, hevents⟩ := h
  obtain ⟨events', hgrowth', hevents'⟩ := h'
  exact ⟨_, hgrowth.trans hgrowth', by rw [hevents', hevents, List.append_assoc]⟩

theorem GrowthTraced.quiet (hgrowth : GrowthEvents interner [] interner')
    (hevents : machine'.eventsOf Event.ofInterner = machine.eventsOf Event.ofInterner) :
    GrowthTraced interner machine interner' machine' := ⟨[], hgrowth, hevents⟩

theorem growthTraced_refl (interner : Interner) (machine : Machine σ) :
    GrowthTraced interner machine interner machine := .quiet (.same rfl rfl rfl) rfl

def AttemptTraced (items : List (List UInt8)) (failure? : Option InternFailure) (interner : Interner)
    (machine : Machine σ) (interner' : Interner) (machine' : Machine σ) : Prop :=
  ∃ failed events, FailureEvents items failure? failed ∧ GrowthEvents interner events interner' ∧
    machine'.eventsOf Event.ofInterner = failed ++ events ++ machine.eventsOf Event.ofInterner

theorem GrowthTraced.attempt (h : GrowthTraced interner machine interner' machine') :
    AttemptTraced items none interner machine interner' machine' := by
  obtain ⟨events, hgrowth, hevents⟩ := h
  exact ⟨[], events, .nothing, hgrowth, hevents⟩

theorem AttemptTraced.growth (h : AttemptTraced items none interner machine interner' machine') :
    GrowthTraced interner machine interner' machine' := by
  obtain ⟨_, events, hfailures, hgrowth, hevents⟩ := h
  cases hfailures
  exact ⟨events, hgrowth, hevents⟩

theorem AttemptTraced.append (h : AttemptTraced items failure? interner machine interner' machine')
    (later : List (List UInt8)) :
    AttemptTraced (items ++ later) failure? interner machine interner' machine' := by
  obtain ⟨failed, events, hfailures, hgrowth, hevents⟩ := h
  refine ⟨failed, events, ?_, hgrowth, hevents⟩
  cases hfailures with
  | nothing => exact .nothing
  | failed failure hitem => exact .failed failure (List.mem_append_left later hitem)

theorem AttemptTraced.after (h : AttemptTraced items failure? interner' machine' interner'' machine'')
    (hgrew : GrowthTraced interner machine interner' machine') :
    AttemptTraced (bytes :: items) failure? interner machine interner'' machine'' := by
  obtain ⟨failed, events, hfailures, hgrowth, hevents⟩ := h
  obtain ⟨earlier, hgrew, hevents'⟩ := hgrew
  refine ⟨failed, events ++ earlier, ?_, hgrew.trans hgrowth, ?_⟩
  · cases hfailures with
    | nothing => exact .nothing
    | failed failure hitem => exact .failed failure (List.mem_cons_of_mem bytes hitem)
  · rw [hevents, hevents', List.append_assoc, List.append_assoc, List.append_assoc]

section Silent

variable (silent : allocator.Silent Event.ofInterner)
include silent

theorem eventsOf_resize? {element : Layout} {buffer : Buffer} {result : Option Buffer}
    (hr : buffer.resize? allocator element capacity machine = (result, machine')) :
    machine'.eventsOf Event.ofInterner = machine.eventsOf Event.ofInterner := by
  have hresized := hr ▸ Buffer.resized allocator element buffer capacity machine
  cases hresized with
  | declined => rfl
  | requested _ _ ha => exact silent.alloc ha
  | moved _ _ _ ha => exact silent.realloc ha

theorem eventsOf_buffer_release {element : Layout} {buffer : Buffer} :
    (buffer.release allocator element machine).eventsOf Event.ofInterner =
      machine.eventsOf Event.ofInterner := by
  rw [Buffer.release]
  split
  · rfl
  · split
    · rfl
    · exact silent.release _ _ _

/-- The first array of a table is not told of; every other doubles the one before. -/
theorem growthTraced_table
    (ht : interner.table.reserveOne allocator machine = (done, table, machine')) :
    GrowthTraced interner machine { interner with table } machine' := by
  rw [SymbolTable.reserveOne] at ht
  dsimp only at ht
  split at ht
  · obtain ⟨-, rfl, rfl⟩ := ht
    exact growthTraced_refl _ _
  rcases hr : interner.table.buffer.resize? allocator Entry.layout
    (if interner.table.capacity = 0 then interner.table.initialCapacity
      else 2 * interner.table.capacity) machine with ⟨_ | buffer, served⟩
  · rw [hr] at ht
    obtain ⟨-, rfl, rfl⟩ := ht
    exact .quiet (.same rfl rfl rfl) (eventsOf_resize? silent hr)
  · rw [hr] at ht
    obtain ⟨-, rfl, rfl⟩ := ht
    have hevents := eventsOf_resize? silent hr
    split
    next hempty =>
      have hcapacity : ({ interner.table with buffer } : SymbolTable).capacity =
          interner.table.initialCapacity := by
        rw [if_pos hempty] at hr
        exact Buffer.resize?_capacity hr
      have hfirst : ({ interner.table with buffer } : SymbolTable).grownFrom =
          interner.table.grownFrom := by
        rw [SymbolTable.grownFrom, hcapacity, ite_self, SymbolTable.grownFrom, if_pos hempty]
      exact ⟨[], ⟨by simp, rfl, rfl, congrArg some hfirst.symm⟩, hevents⟩
    next hpos =>
      have hcapacity : ({ interner.table with buffer } : SymbolTable).capacity =
          2 * interner.table.capacity := by
        rw [if_neg hpos] at hr
        exact Buffer.resize?_capacity hr
      have hfrom : interner.table.grownFrom = interner.table.capacity := if_neg hpos
      have hdoubled : ({ interner.table with buffer } : SymbolTable).grownFrom =
          2 * interner.table.capacity := by
        rw [SymbolTable.grownFrom, hcapacity, if_neg (by omega)]
      refine ⟨[.bufferGrew .table interner.table.capacity (2 * interner.table.capacity)],
        ⟨by simp [Event.isFailure], rfl, rfl, ?_⟩, ?_⟩
      · rw [hfrom, hdoubled]
        simp [capacityFromTrace?, Event.capacityAfter?]
      · rw [Machine.eventsOf_emit_shown rfl, hevents, List.singleton_append]

theorem growthTraced_map
    (hm : interner.map.reserve allocator additional machine = (done, map, machine')) :
    GrowthTraced interner machine { interner with map } machine' := by
  obtain hfull | hroom := Nat.lt_or_ge (interner.map.loadFactor.threshold interner.map.capacity)
    (interner.map.count + additional)
  case inr =>
    rw [SymbolMap.reserve_roomy hroom] at hm
    obtain ⟨-, rfl, rfl⟩ := hm
    exact growthTraced_refl _ _
  have hstep := hm ▸ SymbolMap.growthStep hfull
  cases hstep with
  | unplanned => exact growthTraced_refl _ _
  | refused _ _ hz => exact .quiet (.same rfl rfl rfl) (silent.zallocArray hz)
  | @grown slots addr _ _ _ hz =>
    refine ⟨[.bufferGrew .map interner.map.capacity slots],
      ⟨by simp [Event.isFailure], rfl, ?_, rfl⟩, ?_⟩
    · simp [capacityFromTrace?, Event.capacityAfter?, SymbolMap.capacity]
    · rw [eventsOf_buffer_release silent, Machine.eventsOf_emit_shown rfl, silent.zallocArray hz,
        List.singleton_append]

theorem growthTraced_copy (hd : interner.arena.dup allocator bytes machine = (addr?, arena, machine')) :
    GrowthTraced interner machine { interner with arena } machine' :=
  .quiet (.same rfl rfl rfl)
    (Region.quiet_allocCopy (fun _ => Event.ofInterner_of_ofRegion) silent hd)

theorem growthTraced_insert {result : Except InternFailure Symbol}
    (hi : interner.insert allocator hash bytes machine = (result, interner', machine')) :
    GrowthTraced interner machine interner' machine' := by
  have hinsertion := hi ▸ insertion allocator interner hash bytes machine
  cases hinsertion with
  | full => exact growthTraced_refl _ _
  | tableExhausted _ ht => exact growthTraced_table silent ht
  | mapExhausted _ ht hm =>
    have htable := growthTraced_table silent ht
    exact htable.trans (growthTraced_map silent hm)
  | arenaExhausted _ ht hm hd =>
    have hmade := (growthTraced_table silent ht).trans (growthTraced_map silent hm)
    exact hmade.trans (growthTraced_copy silent hd)
  | issued _ ht hm hd =>
    have hmade := (growthTraced_table silent ht).trans (growthTraced_map silent hm)
    have hcopied := hmade.trans (growthTraced_copy silent hd)
    exact hcopied.trans (.quiet (.same rfl rfl rfl) rfl)

theorem attemptTraced_intern {result : Except InternFailure Symbol}
    (hi : interner.intern contentHash allocator bytes machine = (result, interner', machine')) :
    AttemptTraced [bytes] (Answer.symbol result).failure? interner machine interner' machine' := by
  rw [intern] at hi
  cases hl : interner.lookup (contentHash bytes) bytes machine.memory with
  | some symbol =>
    rw [hl] at hi
    obtain ⟨rfl, rfl, rfl⟩ := hi
    exact (growthTraced_refl _ _).attempt
  | none =>
    rw [hl] at hi
    rcases hins : interner.insert allocator (contentHash bytes) bytes machine with
      ⟨failure | symbol, next, served⟩
    · rw [hins] at hi
      obtain ⟨rfl, rfl, rfl⟩ := hi
      obtain ⟨events, hgrowth, hevents⟩ := growthTraced_insert silent hins
      refine ⟨_, events, .failed failure (List.mem_singleton_self bytes), hgrowth, ?_⟩
      rw [Machine.eventsOf_emit_shown rfl, hevents]
      rfl
    · rw [hins] at hi
      obtain ⟨rfl, rfl, rfl⟩ := hi
      exact (growthTraced_insert silent hins).attempt

theorem attemptTraced_internMany {result : Except InternFailure (List Symbol)}
    (hi : interner.internMany contentHash allocator items machine = (result, interner', machine')) :
    AttemptTraced items (Answer.symbols result).failure? interner machine interner' machine' := by
  induction items generalizing interner machine result interner' machine' with
  | nil =>
    obtain ⟨rfl, rfl, rfl⟩ := hi
    exact (growthTraced_refl _ _).attempt
  | cons bytes items ih =>
    rw [internMany] at hi
    rcases hfirst : interner.intern contentHash allocator bytes machine with
      ⟨failure | symbol, next, served⟩
    · have hattempt := attemptTraced_intern silent hfirst
      rw [hfirst] at hi
      obtain ⟨rfl, rfl, rfl⟩ := hi
      exact hattempt.append items
    · have hgrew := (attemptTraced_intern silent hfirst).growth
      simp only [hfirst] at hi
      rcases hlater : next.internMany contentHash allocator items served with
        ⟨failure | symbols, last, after⟩
      all_goals
        rw [hlater] at hi
        obtain ⟨rfl, rfl, rfl⟩ := hi
        exact (ih hlater).after hgrew

theorem attemptTraced_answered
    (hp : Operation.perform.answered (interner.intern contentHash allocator bytes machine) =
      (answer, interner', machine')) :
    AttemptTraced [bytes] answer.failure? interner machine interner' machine' := by
  rcases hi : interner.intern contentHash allocator bytes machine with ⟨result, next, served⟩
  rw [hi] at hp
  obtain ⟨rfl, rfl, rfl⟩ := hp
  exact attemptTraced_intern silent hi

theorem growthTraced_clear : GrowthTraced interner machine (interner.clear allocator machine).1
    (interner.clear allocator machine).2 := by
  have hquiet : (interner.clear allocator machine).2.eventsOf Event.ofInterner =
      machine.eventsOf Event.ofInterner :=
    Region.quiet_reset (fun _ => Event.ofInterner_of_ofRegion) silent
  exact .quiet (.same rfl rfl rfl) hquiet

theorem attemptTraced_perform (hop : op ≠ .deinit)
    (hp : op.perform contentHash allocator interner machine = (answer, interner', machine')) :
    AttemptTraced op.items answer.failure? interner machine interner' machine' := by
  cases op with
  | intern | internText | internCString => exact attemptTraced_answered silent hp
  | internMany items =>
    rcases hi : interner.internMany contentHash allocator items machine with ⟨result, next, served⟩
    rw [Operation.perform, hi] at hp
    obtain ⟨rfl, rfl, rfl⟩ := hp
    exact attemptTraced_internMany silent hi
  | get | contains | resolve | count | list =>
    obtain ⟨rfl, rfl, rfl⟩ := hp
    exact (growthTraced_refl _ _).attempt
  | clear =>
    obtain ⟨rfl, rfl, rfl⟩ := hp
    exact (growthTraced_clear silent).attempt
  | deinit => exact absurd rfl hop

theorem quiet_deinit :
    (interner.deinit allocator machine).2.eventsOf Event.ofInterner =
      machine.eventsOf Event.ofInterner := by
  have harena : (interner.arena.deinit allocator machine).2.eventsOf Event.ofInterner =
      machine.eventsOf Event.ofInterner :=
    Region.quiet_deinit (fun _ => Event.ofInterner_of_ofRegion) silent
  have hmap : (interner.map.release allocator
      (interner.arena.deinit allocator machine).2).2.eventsOf Event.ofInterner =
      machine.eventsOf Event.ofInterner := (eventsOf_buffer_release silent).trans harena
  exact (eventsOf_buffer_release silent).trans hmap

theorem growthTraced_presize
    (hp : interner.presize allocator capacity machine = (.ok interner', machine')) :
    GrowthTraced interner machine interner' machine' := by
  have hpresizing := hp ▸ presizing allocator interner capacity machine
  cases hpresizing with
  | nothing => exact growthTraced_refl _ _
  | made _ ht hm =>
    have htable := growthTraced_table silent ht
    exact htable.trans (growthTraced_map silent hm)

end Silent

theorem FailureEvents.filter_eq (h : FailureEvents items failure? events) :
    events.filter Event.isFailure = events := by
  cases h <;> rfl

theorem FailureEvents.capacityFromTrace? {buffer : GrownBuffer}
    (h : FailureEvents items failure? events) :
    capacityFromTrace? buffer capacity events = some capacity := by
  cases h <;> rfl

theorem TracedOperation.capacityAfter?_of_ne {buffer : GrownBuffer} {first : Nat}
    {step : TracedOperation}
    (h : step.op ≠ .deinit) :
    step.capacityAfter? buffer first capacity = capacityFromTrace? buffer capacity step.events := by
  obtain ⟨op, answer, events⟩ := step
  cases op with
  | deinit => exact absurd rfl h
  | _ => exact Option.map_id'

structure TracedOperation.Agrees (step : TracedOperation) (interner interner' : Interner) : Prop where
  failures : FailureEvents step.op.items step.answer.failure? (step.events.filter Event.isFailure)
  initial_eq : interner'.table.initialCapacity = interner.table.initialCapacity
  slots : step.capacityAfter? .map 0 interner.map.capacity = some interner'.map.capacity
  entries : step.capacityAfter? .table interner.table.initialCapacity interner.table.grownFrom =
    some interner'.table.grownFrom

theorem agrees_perform (silent : allocator.Silent Event.ofInterner) {events : List Event}
    (hp : op.perform contentHash allocator interner machine = (answer, interner', machine'))
    (hevents : machine'.eventsOf Event.ofInterner = events ++ machine.eventsOf Event.ofInterner) :
    TracedOperation.Agrees ⟨op, answer, events⟩ interner interner' := by
  by_cases hop : op = .deinit
  · subst hop
    obtain ⟨rfl, rfl, rfl⟩ := hp
    have hnothing : events ++ machine.eventsOf Event.ofInterner =
        [] ++ machine.eventsOf Event.ofInterner :=
      hevents.symm.trans (quiet_deinit silent)
    obtain rfl : events = [] := List.append_cancel_right hnothing
    exact ⟨.nothing, rfl, rfl, rfl⟩
  · obtain ⟨failed, growths, hfailures, hgrowth, hattempt⟩ := attemptTraced_perform silent hop hp
    obtain rfl : events = failed ++ growths := List.append_cancel_right (hevents.symm.trans hattempt)
    have hgrowths : growths.filter Event.isFailure = [] := by
      simpa [List.filter_eq_nil_iff] using hgrowth.growths
    refine ⟨?_, hgrowth.initial_eq, ?_, ?_⟩
    · rw [List.filter_append, hgrowths, List.append_nil, hfailures.filter_eq]
      exact hfailures
    · rw [TracedOperation.capacityAfter?_of_ne hop, capacityFromTrace?_append, hgrowth.slots,
        Option.bind_some, hfailures.capacityFromTrace?]
    · rw [TracedOperation.capacityAfter?_of_ne hop, capacityFromTrace?_append, hgrowth.entries,
        Option.bind_some, hfailures.capacityFromTrace?]

section Story

variable {start : Machine σ} {made : List Event}
  {steps : List TracedOperation} {history : List (Operation × Answer)}

theorem Run.traced (silent : allocator.Silent Event.ofInterner)
    (run : Run contentHash allocator (fun _ => Machine.Quiet Event.ofInterner) start history interner
      machine) :
    ∃ made steps, TracedRun contentHash allocator start made steps interner machine ∧
      steps.map (fun step => (step.op, step.answer)) = history := by
  induction run with
  | create => exact ⟨_, _, .create _ _ _ _, rfl⟩
  | presize hp =>
    obtain ⟨made, -, hevents⟩ := growthTraced_presize silent hp
    exact ⟨made, _, .presize hp hevents, rfl⟩
  | @perform _ interner machine answer interner' machine' op _ hp ih =>
    obtain ⟨made, steps, traced, rfl⟩ := ih
    by_cases hop : op = .deinit
    · subst hop
      obtain ⟨rfl, rfl, rfl⟩ := hp
      have hquiet : (interner.deinit allocator machine).2.eventsOf Event.ofInterner =
          [] ++ machine.eventsOf Event.ofInterner := quiet_deinit silent
      exact ⟨made, _, traced.perform .deinit rfl hquiet, rfl⟩
    · obtain ⟨failed, events, -, -, hevents⟩ := attemptTraced_perform silent hop hp
      exact ⟨made, _, traced.perform op hp hevents, rfl⟩
  | others _ ho ih =>
    obtain ⟨made, steps, traced, hhistory⟩ := ih
    exact ⟨made, steps, traced.others ho, hhistory⟩

/-- The events of an interner account for its state: one for each operation that failed, and the
growths of map and table are chains that end at the capacities. -/
structure TraceAgrees (start : Machine σ) (made : List Event) (steps : List TracedOperation)
    (interner : Interner) (machine : Machine σ) : Prop where
  events : machine.eventsOf Event.ofInterner =
    steps.flatMap TracedOperation.events ++ made ++ start.eventsOf Event.ofInterner
  creation : ∀ event ∈ made, event.isFailure = false
  failures : ∀ step ∈ steps,
    FailureEvents step.op.items step.answer.failure? (step.events.filter Event.isFailure)
  slots : capacityAt? .map 0 made steps = some interner.map.capacity
  entries : capacityAt? .table interner.table.initialCapacity made steps =
    some interner.table.grownFrom

theorem traceAgrees_of_growth {anchor : Word} {loadFactor : LoadFactor} {arenaLimit : Option Word}
    (h : GrowthTraced (.create anchor loadFactor capacity arenaLimit) start interner machine)
    (hevents : machine.eventsOf Event.ofInterner = made ++ start.eventsOf Event.ofInterner) :
    TraceAgrees start made [] interner machine := by
  obtain ⟨events, hgrowth, hgrown⟩ := h
  obtain rfl : made = events := List.append_cancel_right (hevents.symm.trans hgrown)
  refine ⟨hevents, hgrowth.growths, by simp, hgrowth.slots, ?_⟩
  rw [hgrowth.initial_eq]
  exact hgrowth.entries

theorem TracedRun.traceAgrees (silent : allocator.Silent Event.ofInterner)
    (traced : TracedRun contentHash allocator start made steps interner machine) :
    TraceAgrees start made steps interner machine := by
  induction traced with
  | create => exact traceAgrees_of_growth (growthTraced_refl _ _) rfl
  | presize hp hevents => exact traceAgrees_of_growth (growthTraced_presize silent hp) hevents
  | perform op _ hp hevents ih =>
    have hagrees := agrees_perform silent hp hevents
    refine ⟨?_, ih.creation, List.forall_mem_cons.2 ⟨hagrees.failures, ih.failures⟩, ?_, ?_⟩
    · rw [hevents, ih.events, List.flatMap_cons, List.append_assoc, List.append_assoc,
        List.append_assoc]
    · rw [capacityAt?, ih.slots, Option.bind_some, hagrees.slots]
    · rw [capacityAt?, hagrees.initial_eq, ih.entries, Option.bind_some, hagrees.entries]
  | others _ ho ih => exact { ih with events := ho.trans ih.events }

end Story

end Interner

end ArenaMemory
