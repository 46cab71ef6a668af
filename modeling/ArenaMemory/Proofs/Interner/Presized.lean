import ArenaMemory.Proofs.RunFrom
import ArenaMemory.Proofs.Interner.BlockLedger
import ArenaMemory.Proofs.Interner.Growth
import ArenaMemory.Proofs.Region.ChunkCalls

namespace ArenaMemory

variable {σ : Type}

def Interner.Operation.items : Interner.Operation → List (List UInt8)
  | intern bytes => [bytes]
  | internText text => [text.toUTF8.toList]
  | internCString bytes => [bytes.takeWhile (· ≠ 0)]
  | internMany items => items
  | _ => []

namespace Interner

/-- The items are interned one after the other, each of them among fewer than `room` symbols or
present already. Nothing is said of the items behind one that fails. -/
def InRoom (contentHash : ContentHash) (allocator : Allocator σ) (room : Nat) :
    List (List UInt8) → Interner → Machine σ → Prop
  | [], _, _ => True
  | bytes :: items, interner, machine =>
    (interner.count < room ∨ interner.get? contentHash bytes machine.memory ≠ none) ∧
      ∀ symbol interner' machine',
        interner.intern contentHash allocator bytes machine = (.ok symbol, interner', machine') →
        InRoom contentHash allocator room items interner' machine'

/-- The table and the map have room for so many symbols, however many there are; and all that the
arena obtained are chunks. -/
structure Presized (room : Nat) (interner : Interner) : Prop where
  table : interner.table.Valid
  entries : room ≤ interner.table.capacity
  slots : room ≤ interner.map.loadFactor.threshold interner.map.capacity
  count_eq : interner.map.count = interner.count
  arena : interner.arena.Chunked

/-- The table and the map kept the blocks that they had, and all that was asked for were chunks. -/
structure ByArena (interner : Interner) (machine : Machine (Recorded σ)) (interner' : Interner)
    (machine' : Machine (Recorded σ)) : Prop where
  entries : interner'.table.buffer = interner.table.buffer
  slots : interner'.map.buffer = interner.map.buffer
  calls : ChunkCalls machine.store.calls machine'.store.calls

/-- How interning goes where room was made in advance. It may find the arena exhausted; the symbols
only where room was made for more of them than there are. -/
structure InternedInRoom (room : Nat) (bytes : List UInt8) (interner : Interner)
    (machine : Machine (Recorded σ)) (result : Except InternFailure Symbol) (interner' : Interner)
    (machine' : Machine (Recorded σ)) : Prop where
  byArena : ByArena interner machine interner' machine'
  failure : ∀ failure, result = .error failure → failure = .arenaExhausted bytes.length ∨
    failure = .symbolsExhausted ∧ maxSymbols ≤ interner.count ∧ interner.count < room

variable {inner : Allocator σ} {contentHash : ContentHash} {interner interner' : Interner}
  {machine machine' : Machine (Recorded σ)} {room : Nat} {bytes : List UInt8} {hash : UInt64}
  {table : SymbolTable} {map : SymbolMap} {done : Except InternFailure Unit} {additional : Nat}
  {op : Operation} {answer : Answer}

namespace ByArena

theorem refl (interner : Interner) (machine : Machine (Recorded σ)) :
    ByArena interner machine interner machine := ⟨rfl, rfl, .refl _⟩

theorem trans {interner'' : Interner} {machine'' : Machine (Recorded σ)}
    (h : ByArena interner machine interner' machine')
    (h' : ByArena interner' machine' interner'' machine'') :
    ByArena interner machine interner'' machine'' :=
  ⟨h'.entries.trans h.entries, h'.slots.trans h.slots, h.calls.trans h'.calls⟩

end ByArena

namespace Presized

variable (presized : interner.Presized room)
include presized

theorem reserveOne
    (ht : interner.table.reserveOne inner.recorded machine = (done, table, machine')) :
    ({ interner with table } : Interner).Presized room ∧
      (done = .ok () → table.count < table.capacity) := by
  obtain ⟨hsame, hle, hroom⟩ := SymbolTable.reserveOne_reserved presized.table ht
  have hcount : table.count = interner.table.count := by
    rw [hsame]
    rfl
  refine ⟨⟨⟨?_, ?_⟩, presized.entries.trans hle, presized.slots,
    presized.count_eq.trans hcount.symm, presized.arena⟩, fun hdone => hcount ▸ hroom hdone⟩
  · rw [hsame]
    exact presized.table.initial_pos
  · rw [hcount]
    exact presized.table.count_le.trans hle

theorem reserve
    (hm : interner.map.reserve inner.recorded additional machine = (done, map, machine')) :
    ({ interner with map } : Interner).Presized room := by
  obtain ⟨hcount, hle, -⟩ := SymbolMap.reserve_threshold hm
  exact ⟨presized.table, presized.entries, presized.slots.trans hle,
    hcount.trans presized.count_eq, presized.arena⟩

theorem withArena {arena : Region} (chunked : arena.Chunked) :
    ({ interner with arena } : Interner).Presized room :=
  ⟨presized.table, presized.entries, presized.slots, presized.count_eq, chunked⟩

theorem add (hroom : interner.table.count < interner.table.capacity) (hash : UInt64) (id : UInt32)
    (entry : Entry) :
    ({ interner with
        map := interner.map.insertUnique hash id
        table := interner.table.push entry } : Interner).Presized room := by
  have hcount := interner.table.count_push entry
  refine ⟨⟨presized.table.initial_pos, hcount ▸ hroom⟩, presized.entries, presized.slots, ?_,
    presized.arena⟩
  exact (congrArg (· + 1) presized.count_eq).trans hcount.symm

end Presized

theorem stepwise_presized (inner : Allocator σ) (room : Nat) :
    Stepwise inner.recorded fun interner _ interner' _ =>
      interner.Presized room → interner'.Presized room where
  refl _ _ presized := presized
  trans h h' presized := h' (h presized)
  insert := by
    intro interner hash bytes machine result interner' machine' hi trace presized
    have hinsertion := hi ▸ insertion inner.recorded interner hash bytes machine
    cases hinsertion with
    | full => exact presized
    | tableExhausted _ ht => exact (presized.reserveOne ht).1
    | mapExhausted _ ht hm => exact (presized.reserveOne ht).1.reserve hm
    | arenaExhausted _ ht hm hd =>
      have hmade := (presized.reserveOne ht).1.reserve hm
      exact hmade.withArena (hmade.arena.allocCopy hd).1
    | issued _ ht hm hd =>
      obtain ⟨htable, hroom⟩ := presized.reserveOne ht
      have hmade := htable.reserve hm
      exact (hmade.add (hroom rfl) _ _ _).withArena (hmade.arena.allocCopy hd).1

theorem Presized.clear (presized : interner.Presized room) :
    (interner.clear inner.recorded machine).1.Presized room ∧
      ByArena interner machine (interner.clear inner.recorded machine).1
        (interner.clear inner.recorded machine).2 := by
  obtain ⟨harena, hcalls⟩ := presized.arena.reset inner machine
  exact ⟨⟨⟨presized.table.initial_pos, Nat.zero_le _⟩, presized.entries, presized.slots, rfl,
    harena⟩, rfl, rfl, hcalls⟩

theorem Presized.perform (presized : interner.Presized room) (hop : op ≠ .deinit)
    (hp : op.perform contentHash inner.recorded interner machine = (answer, interner', machine')) :
    interner'.Presized room := by
  cases op with
  | intern bytes | internText text | internCString bytes =>
    exact (stepwise_presized inner room).intern (Prod.ext rfl (Prod.mk.inj hp).2) presized
  | internMany items =>
    exact (stepwise_presized inner room).internMany (Prod.ext rfl (Prod.mk.inj hp).2) presized
  | get bytes | contains bytes | resolve symbol | count | list =>
    obtain ⟨-, rfl, -⟩ := hp
    exact presized
  | clear =>
    obtain ⟨-, rfl, -⟩ := hp
    exact presized.clear.1
  | deinit => exact absurd rfl hop

/-- Where both have room, an insertion comes down to the copy. -/
theorem insert_roomy {allocator : Allocator σ} {machine : Machine σ}
    (hcount : interner.count < maxSymbols) (htable : interner.table.count < interner.table.capacity)
    (hmap : interner.map.count + 1 ≤ interner.map.loadFactor.threshold interner.map.capacity) :
    interner.insert allocator hash bytes machine =
      match interner.arena.dup allocator bytes machine with
      | (none, arena, machine) =>
        (.error (.arenaExhausted bytes.length), { interner with arena }, machine)
      | (some addr, arena, machine) =>
        (.ok ⟨UInt32.ofNat interner.count⟩,
          ⟨arena, interner.map.insertUnique hash (UInt32.ofNat interner.count),
            interner.table.push ⟨addr, bytes.length⟩⟩,
          machine) := by
  have hreserved : interner.table.reserveOne allocator machine = (.ok (), interner.table, machine) :=
    if_pos htable
  have hsymbols : ¬ maxSymbols ≤ interner.table.count := Nat.not_le.2 hcount
  rw [Interner.insert, if_neg hsymbols]
  simp only [hreserved, SymbolMap.reserve_roomy hmap]
  rcases interner.arena.dup allocator bytes machine with ⟨_ | addr, arena, served⟩
  · rfl
  · rfl

/-- Among fewer symbols than room was made for, an insertion asks for nothing but the copy. -/
theorem Presized.insert (presized : interner.Presized room) (hroom : interner.count < room)
    {result : Except InternFailure Symbol}
    (hi : interner.insert inner.recorded hash bytes machine = (result, interner', machine')) :
    InternedInRoom room bytes interner machine result interner' machine' := by
  obtain hfull | hcount := (Nat.lt_or_ge interner.count maxSymbols).symm
  · have hrefused : interner.insert inner.recorded hash bytes machine =
      (.error .symbolsExhausted, interner, machine) := if_pos hfull
    obtain ⟨rfl, rfl, rfl⟩ := hrefused.symm.trans hi
    exact ⟨.refl _ _, fun failure he => .inr ⟨(Except.error.inj he).symm, hfull, hroom⟩⟩
  have htable : interner.table.count < interner.table.capacity :=
    Nat.lt_of_lt_of_le hroom presized.entries
  have hmap : interner.map.count + 1 ≤ interner.map.loadFactor.threshold interner.map.capacity :=
    presized.count_eq ▸ Nat.le_trans hroom presized.slots
  rw [insert_roomy hcount htable hmap] at hi
  rcases hd : interner.arena.dup inner.recorded bytes machine with ⟨_ | addr, arena, served⟩
  all_goals
    have hcalls := (presized.arena.allocCopy hd).2
    rw [hd] at hi
    obtain ⟨rfl, rfl, rfl⟩ := hi
  · exact ⟨⟨rfl, rfl, hcalls⟩, fun failure he => .inl (Except.error.inj he).symm⟩
  · exact ⟨⟨rfl, rfl, hcalls⟩, by simp⟩

theorem Presized.intern (presized : interner.Presized room)
    (hroom : interner.count < room ∨ interner.get? contentHash bytes machine.memory ≠ none)
    {result : Except InternFailure Symbol}
    (hi : interner.intern contentHash inner.recorded bytes machine =
      (result, interner', machine')) :
    InternedInRoom room bytes interner machine result interner' machine' := by
  unfold Interner.intern at hi
  dsimp only at hi
  cases hl : interner.lookup (contentHash bytes) bytes machine.memory with
  | some symbol =>
    rw [hl] at hi
    obtain ⟨rfl, rfl, rfl⟩ := hi
    exact ⟨.refl _ _, by simp⟩
  | none =>
    rw [hl] at hi
    have hfew := hroom.resolve_right fun hpresent => hpresent hl
    rcases hins : interner.insert inner.recorded (contentHash bytes) bytes machine with
      ⟨failure | symbol, next, served⟩
    all_goals
      rw [hins] at hi
      obtain ⟨rfl, rfl, rfl⟩ := hi
      -- a failure adds an event, which the calls do not show
      obtain ⟨harena, hfailure⟩ := presized.insert hfew hins
      exact ⟨⟨harena.entries, harena.slots, harena.calls⟩, hfailure⟩

theorem Presized.internMany (presized : interner.Presized room) {items : List (List UInt8)}
    (hroom : InRoom contentHash inner.recorded room items interner machine)
    {result : Except InternFailure (List Symbol)}
    (hi : interner.internMany contentHash inner.recorded items machine =
      (result, interner', machine')) :
    ByArena interner machine interner' machine' := by
  induction items generalizing interner machine result interner' machine' with
  | nil =>
    obtain ⟨rfl, rfl, rfl⟩ := hi
    exact .refl _ _
  | cons bytes items ih =>
    obtain ⟨hfirst, hrest⟩ := hroom
    rw [Interner.internMany] at hi
    rcases hbytes : interner.intern contentHash inner.recorded bytes machine with
      ⟨failure | symbol, next, served⟩
    · rw [hbytes] at hi
      obtain ⟨rfl, rfl, rfl⟩ := hi
      exact (presized.intern hfirst hbytes).byArena
    · simp only [hbytes] at hi
      have hnext := (stepwise_presized inner room).intern hbytes presized
      rcases hlater : next.internMany contentHash inner.recorded items served with
        ⟨failure | symbols, last, after⟩
      all_goals
        rw [hlater] at hi
        obtain ⟨rfl, rfl, rfl⟩ := hi
        exact (presized.intern hfirst hbytes).byArena.trans (ih hnext (hrest _ _ _ hbytes) hlater)

theorem Presized.answered (presized : interner.Presized room)
    (hroom : interner.count < room ∨ interner.get? contentHash bytes machine.memory ≠ none)
    (hp : Operation.perform.answered (interner.intern contentHash inner.recorded bytes machine) =
      (answer, interner', machine')) :
    ByArena interner machine interner' machine' := by
  rcases hi : interner.intern contentHash inner.recorded bytes machine with ⟨result, next, served⟩
  rw [hi] at hp
  obtain ⟨-, rfl, rfl⟩ := hp
  exact (presized.intern hroom hi).byArena

theorem Presized.perform_byArena (presized : interner.Presized room) (hop : op ≠ .deinit)
    (hroom : InRoom contentHash inner.recorded room op.items interner machine)
    (hp : op.perform contentHash inner.recorded interner machine = (answer, interner', machine')) :
    ByArena interner machine interner' machine' := by
  cases op with
  | intern bytes | internText text | internCString bytes => exact presized.answered hroom.1 hp
  | internMany items =>
    rcases hi : interner.internMany contentHash inner.recorded items machine with
      ⟨result, next, served⟩
    simp only [Operation.perform, hi] at hp
    obtain ⟨-, rfl, rfl⟩ := hp
    exact presized.internMany hroom hi
  | get bytes | contains bytes | resolve symbol | count | list =>
    obtain ⟨-, rfl, rfl⟩ := hp
    exact .refl _ _
  | clear =>
    obtain ⟨-, rfl, rfl⟩ := hp
    exact presized.clear.2
  | deinit => exact absurd rfl hop

variable {anchor : Word} {loadFactor : LoadFactor} {capacity : Nat} {arenaLimit : Option Word}
  {start fresh : Machine (Recorded σ)} {made : Interner}
  {others : Interner → Machine (Recorded σ) → Machine (Recorded σ) → Prop}
  {allowed : Operation → Interner → Machine (Recorded σ) → Prop} {ops : List (Operation × Answer)}

theorem presized_of_presize (hpos : 0 < capacity)
    (hp : (create anchor loadFactor capacity arenaLimit).presize inner.recorded capacity start =
      (.ok made, fresh)) :
    made.Presized capacity ∧ made.table.capacity = capacity := by
  have hcreated : (create anchor loadFactor capacity arenaLimit).Presized 0 :=
    ⟨(SymbolTable.bounded_ofCapacity capacity).valid, Nat.zero_le _, Nat.zero_le _, rfl,
      fun chunk hchunk => absurd hchunk List.not_mem_nil⟩
  have hpresizing := hp ▸ presizing inner.recorded _ capacity start
  cases hpresizing with
  | nothing hzero => exact absurd hzero (Nat.ne_of_gt hpos)
  | @made table map _ _ _ ht hm =>
    have hcapacity : table.capacity = capacity := SymbolTable.capacity_of_ofCapacity hpos ht
    have hthreshold : capacity ≤ map.loadFactor.threshold map.capacity := by
      have hneeded := (SymbolMap.reserve_threshold hm).2.2 rfl
      rwa [show (create anchor loadFactor capacity arenaLimit).map.count = 0 from rfl,
        Nat.zero_add] at hneeded
    have hboth := (hcreated.reserveOne ht).1.reserve hm
    exact ⟨{ hboth with entries := Nat.le_of_eq hcapacity.symm, slots := hthreshold }, hcapacity⟩

theorem Presized.runFrom (presized : made.Presized room)
    (run : RunFrom (fun op : Operation => op.perform contentHash inner.recorded) allowed others made
      fresh ops interner machine)
    (hallowed : ∀ {op interner machine}, allowed op interner machine → op ≠ .deinit) :
    interner.Presized room := by
  refine run.preserves (fun interner _ => interner.Presized room) presized ?_ ?_
  · rintro op before between answer after later hbefore hop hp
    exact hbefore.perform (hallowed hop) hp
  · rintro after between later hafter -
    exact hafter

theorem Presized.runFrom_byArena (presized : made.Presized room)
    (run : RunFrom (fun op : Operation => op.perform contentHash inner.recorded)
      (fun op interner machine =>
        op ≠ .deinit ∧ InRoom contentHash inner.recorded room op.items interner machine)
      (fun _ machine machine' => machine'.store.calls = machine.store.calls) made fresh ops interner
      machine) :
    ByArena made fresh interner machine := by
  refine (run.preserves (fun interner machine =>
    interner.Presized room ∧ ByArena made fresh interner machine) ⟨presized, .refl _ _⟩ ?_ ?_).2
  · rintro op before between answer after later ⟨hbefore, hsofar⟩ ⟨hop, hroom⟩ hp
    exact ⟨hbefore.perform hop hp, hsofar.trans (hbefore.perform_byArena hop hroom hp)⟩
  · rintro after between later ⟨hafter, hsofar⟩ ho
    exact ⟨hafter, hsofar.entries, hsofar.slots, ho ▸ hsofar.calls⟩

/-- Among at most so many distinct byte strings, a new one finds fewer symbols. -/
theorem Refines.inRoom {allocator : Allocator σ} {contract : allocator.Contract}
    {rest : Multiset Grant} {strings items : List (List UInt8)} {distinct : Finset (List UInt8)}
    {interner : Interner} {machine : Machine σ} (hcard : distinct.card ≤ room)
    (h : Refines contract rest contentHash interner machine strings)
    (hstrings : ∀ bytes ∈ strings, bytes ∈ distinct) (hitems : ∀ bytes ∈ items, bytes ∈ distinct) :
    InRoom contentHash allocator room items interner machine := by
  induction items generalizing interner machine strings with
  | nil => trivial
  | cons bytes items ih =>
    obtain ⟨hbytes, hitems⟩ := List.forall_mem_cons.1 hitems
    constructor
    · by_cases hmem : bytes ∈ strings
      · exact .inr fun hnone => h.1.lookup_eq_none.1 hnone hmem
      · have hnodup : (bytes :: strings).Nodup := List.nodup_cons.2 ⟨hmem, h.1.nodup⟩
        have hsubset : (bytes :: strings).toFinset ⊆ distinct := fun other hother =>
          List.forall_mem_cons.2 ⟨hbytes, hstrings⟩ other (List.mem_toFinset.1 hother)
        have hle := Finset.card_le_card hsubset
        rw [List.toFinset_card_of_nodup hnodup, List.length_cons] at hle
        rw [h.1.count_eq]
        exact .inl (hle.trans hcard)
    · intro symbol interner' machine' hi
      obtain ⟨strings', hissued, hrefines⟩ := intern_refines h hi
      refine ih hrefines (fun other hother => ?_) hitems
      cases hissued with
      | present => exact hstrings other hother
      | appended =>
        exact (List.mem_append.1 hother).elim (hstrings other)
          fun hlast => List.mem_singleton.1 hlast ▸ hbytes

end Interner

end ArenaMemory
