import ArenaMemory.Proofs.Allocator.Window
import ArenaMemory.Proofs.Interner.Capacity
import ArenaMemory.Proofs.Interner.StableCopies

namespace ArenaMemory

variable {σ τ : Type}

namespace Interner

inductive Use where
  | intern (bytes : List UInt8)
  | get (bytes : List UInt8)
  | resolve (symbol : Symbol)
  | resolveCString (symbol : Symbol)
  | list
  | count

def Use.perform (use : Use) (contentHash : ContentHash) (allocator : Allocator σ)
    (interner : Interner) (machine : Machine σ) : Answer × Interner × Machine σ :=
  match use with
  | intern bytes => (Operation.intern bytes).perform contentHash allocator interner machine
  | get bytes => (Operation.get bytes).perform contentHash allocator interner machine
  | resolve symbol => (Operation.resolve symbol).perform contentHash allocator interner machine
  | resolveCString symbol =>
    (.bytes (interner.resolveCString symbol machine.memory), interner, machine)
  | list => Operation.list.perform contentHash allocator interner machine
  | count => Operation.count.perform contentHash allocator interner machine

/-- Something is refused while a symbol for new bytes is issued: room in the table or in the map for
which there is a layout, or a copy of the bytes. -/
inductive Refused (allocator : Allocator σ) (interner : Interner) (bytes : List UInt8)
    (machine : Machine σ) : Prop where
  | table {layout failure table machine'} : interner.count < maxSymbols →
      Entry.layout.array interner.table.nextCapacity = some layout →
      interner.table.reserveOne allocator machine = (.error failure, table, machine') →
      Refused allocator interner bytes machine
  | map {layout failure table map middle machine'} : interner.count < maxSymbols →
      interner.table.reserveOne allocator machine = (.ok (), table, middle) →
      (SymbolMap.capacityFor? interner.map.loadFactor interner.map.capacity
        (interner.map.count + 1)).bind Slot.layout.array = some layout →
      interner.map.reserve allocator 1 middle = (.error failure, map, machine') →
      Refused allocator interner bytes machine
  | arena {table map arena first second machine'} : interner.count < maxSymbols →
      interner.table.reserveOne allocator machine = (.ok (), table, first) →
      interner.map.reserve allocator 1 first = (.ok (), map, second) →
      interner.arena.dup allocator bytes second = (none, arena, machine') →
      Refused allocator interner bytes machine

def Use.Refused (contentHash : ContentHash) (allocator : Allocator σ) (use : Use)
    (interner : Interner) (machine : Machine σ) : Prop :=
  match use with
  | intern bytes => interner.get? contentHash bytes machine.memory = none ∧
      interner.Refused allocator bytes machine
  | _ => False

def place? (strings : List (List UInt8)) (bytes : List UInt8) : Option Symbol :=
  (strings.idxOf? bytes).map fun i => ⟨UInt32.ofNat i⟩

def item (strings : List (List UInt8)) (symbol : Symbol) : Except Violation (List UInt8) :=
  match strings[symbol.index]? with
  | none => .error (.symbolOutOfRange symbol.id strings.length)
  | some bytes => .ok bytes

/-- Why no symbol can be issued for new bytes, after so many, even if nothing is refused: there are
no more symbols, or what should be obtained has no layout. -/
def shortage? (factor : LoadFactor) (initialCapacity count : Nat) : Option InternFailure :=
  if maxSymbols ≤ count then some .symbolsExhausted
  else if count = 0 ∧ Entry.layout.array initialCapacity = none then some (.tableExhausted 0)
  else if (SymbolMap.capacityFor? factor 0 (count + 1)).bind Slot.layout.array = none then
    some (.mapExhausted (SymbolMap.slotsFor factor count))
  else none

/-- What a list answers to which nothing is refused, and the list after it. -/
def Use.answer (factor : LoadFactor) (initialCapacity : Nat) (strings : List (List UInt8)) :
    Use → Answer × List (List UInt8)
  | intern bytes =>
    match place? strings bytes with
    | some symbol => (.symbol (.ok symbol), strings)
    | none =>
      match shortage? factor initialCapacity strings.length with
      | some failure => (.symbol (.error failure), strings)
      | none => (.symbol (.ok ⟨UInt32.ofNat strings.length⟩), strings ++ [bytes])
  | get bytes => (.lookup (place? strings bytes), strings)
  | resolve symbol => (.bytes (item strings symbol), strings)
  | resolveCString symbol =>
    (.bytes ((item strings symbol).map fun bytes => bytes.takeWhile (· ≠ 0)), strings)
  | list =>
    (.listing (strings.zipIdx.map fun (bytes, i) => (⟨UInt32.ofNat i⟩, bytes)), strings)
  | count => (.count strings.length, strings)

/-- The uses, the latest first, of a list that is empty at first: their answers, and the list after
them. -/
def replay (factor : LoadFactor) (initialCapacity : Nat) :
    List Use → List (Use × Answer) × List (List UInt8)
  | [] => ([], [])
  | use :: earlier =>
    let before := replay factor initialCapacity earlier
    let answered := use.answer factor initialCapacity before.2
    ((use, answered.1) :: before.1, answered.2)

variable {contentHash : ContentHash} {allocator : Allocator σ} {contract : allocator.Contract}
  {start machine machine' after : Machine σ} {interner interner' later : Interner}
  {strings strings' : List (List UInt8)} {bytes : List UInt8} {symbol : Symbol} {hash : UInt64}
  {factor : LoadFactor} {initialCapacity : Nat} {use : Use} {answer : Answer}
  {events : List (Use × Answer)} {result : Except InternFailure Symbol}

theorem place?_eq_some (hnodup : strings.Nodup) (h : strings[symbol.index]? = some bytes) :
    place? strings bytes = some symbol := by
  obtain ⟨hlt, hget⟩ := List.getElem?_eq_some_iff.1 h
  have hplace : strings.idxOf? bytes = some symbol.index := by
    refine List.idxOf?_eq_some_iff.2 ⟨hlt, hget, fun j hj hsame => ?_⟩
    have heq := (hnodup.getElem_inj_iff).1 (hsame.trans hget.symm)
    omega
  rw [place?, hplace]
  exact congrArg some (congrArg Symbol.mk UInt32.ofNat_toNat)

theorem place?_eq_none (h : bytes ∉ strings) : place? strings bytes = none := by
  rw [place?, List.idxOf?_eq_none_iff.2 h, Option.map_none]

theorem Represents.map_count (rep : Represents contentHash interner machine.memory strings) :
    interner.map.count = interner.count := by
  rw [rep.map.count_eq, rep.taken_eq, rep.count_eq, slotsOf, Multiset.coe_card, List.length_map,
    List.length_zipIdx]

theorem Fits.array_initial {table : SymbolTable} (fits : Fits factor initialCapacity interner)
    (valid : interner.table.Valid)
    (ht : interner.table.reserveOne allocator machine = (.ok (), table, machine')) :
    (Entry.layout.array initialCapacity).isSome := by
  have hroom := (SymbolTable.reserveOne_reserved valid ht).room rfl
  obtain ⟨-, hinitial, -, hfitted⟩ := fits.reserveOne ht
  exact hinitial ▸ hfitted.resolve_left (Nat.ne_of_gt (Nat.zero_lt_of_lt hroom))

theorem insert_result (rep : Represents contentHash interner machine.memory strings)
    (fits : Fits factor initialCapacity interner)
    (granted : ¬ interner.Refused allocator bytes machine)
    (hi : interner.insert allocator hash bytes machine = (result, interner', machine')) :
    result = (shortage? factor initialCapacity interner.count).elim
      (.ok ⟨UInt32.ofNat interner.count⟩) .error := by
  have hinsertion := insertion allocator interner hash bytes machine
  rw [hi] at hinsertion
  cases hinsertion with
  | full hfull =>
    rw [shortage?, if_pos hfull]
    rfl
  | tableExhausted hlt ht =>
    have hreservation := ht ▸ SymbolTable.reservation allocator machine rep.table
    cases hreservation with
    | refused hfull hc hb =>
      cases ha : Entry.layout.array interner.table.nextCapacity with
      | some layout => exact absurd (.table hlt ha ht) granted
      | none =>
        obtain ⟨hzero, hnone⟩ := SymbolTable.array_nextCapacity hfull hlt ha
        have hcount : interner.count = 0 :=
          Nat.eq_zero_of_le_zero (hzero ▸ rep.table.count_le)
        rw [fits.initial_eq] at hnone
        rw [shortage?, if_neg (Nat.not_le_of_lt hlt), if_pos ⟨hcount, hnone⟩, hzero]
        rfl
  | mapExhausted hlt ht hm =>
    have hinitial := fits.array_initial rep.table ht
    have hreservation := hm ▸ SymbolMap.reservation allocator interner.map 1 _
    cases hreservation with
    | unplanned hfull hnone =>
      obtain ⟨hslots, hplan⟩ := fits.map.filled rep.map.count_le hfull
      rw [hplan, fits.factor_eq, rep.map_count] at hnone
      rw [hslots, fits.factor_eq, rep.map_count, shortage?, if_neg (Nat.not_le_of_lt hlt),
        if_neg fun h => Option.isSome_iff_ne_none.1 hinitial h.2, if_pos hnone]
      rfl
    | denied hpos hz hplanned => exact absurd (.map hlt ht hplanned hm) granted
  | arenaExhausted hlt ht hm hd => exact absurd (.arena hlt ht hm hd) granted
  | issued hlt ht hm hd =>
    have hinitial := fits.array_initial rep.table ht
    have hroom := (SymbolMap.reserve_reserved rep.map hm).room rfl
    obtain ⟨hfactor, -, hfitted, -⟩ := (fits.reserveOne ht).reserve Nat.one_pos hm
    have hplanned := hfitted.isSome_array (Nat.succ_pos _) hroom
    rw [hfactor, rep.map_count] at hplanned
    rw [shortage?, if_neg (Nat.not_le_of_lt hlt),
      if_neg fun h => Option.isSome_iff_ne_none.1 hinitial h.2,
      if_neg (Option.isSome_iff_ne_none.1 hplanned)]
    rfl

theorem intern_result (hnew : interner.get? contentHash bytes machine.memory = none)
    (hi : interner.intern contentHash allocator bytes machine = (result, interner', machine')) :
    (interner.insert allocator (contentHash bytes) bytes machine).1 = result := by
  rw [get?] at hnew
  rw [intern] at hi
  rw [hnew] at hi
  rcases hins : interner.insert allocator (contentHash bytes) bytes machine with
    ⟨failure | symbol, next, served⟩
  all_goals
    rw [hins] at hi
    exact (Prod.mk.inj hi).1

theorem Refused.insert_eq_error (h : interner.Refused allocator bytes machine) :
    ∃ failure, (interner.insert allocator hash bytes machine).1 = .error failure := by
  cases h with
  | @table layout failure _ _ hlt _ ht =>
    exact ⟨failure, by simp [insert, Nat.not_le_of_lt (show interner.table.count < _ from hlt), ht]⟩
  | @map layout failure _ _ _ _ hlt ht _ hm =>
    exact ⟨failure,
      by simp [insert, Nat.not_le_of_lt (show interner.table.count < _ from hlt), ht, hm]⟩
  | arena hlt ht hm hd =>
    exact ⟨.arenaExhausted bytes.length,
      by simp [insert, Nat.not_le_of_lt (show interner.table.count < _ from hlt), ht, hm, hd]⟩

theorem Use.not_refused
    (hi : interner.intern contentHash allocator bytes machine = (.ok symbol, interner', machine')) :
    ¬ (Use.intern bytes).Refused contentHash allocator interner machine := by
  rintro ⟨hnew, hrefused⟩
  obtain ⟨failure, herror⟩ : ∃ failure,
      (interner.insert allocator (contentHash bytes) bytes machine).1 = .error failure :=
    hrefused.insert_eq_error
  rw [intern_result hnew hi] at herror
  cases herror

theorem Represents.get?_eq_place? (rep : Represents contentHash interner machine.memory strings) :
    interner.get? contentHash bytes machine.memory = place? strings bytes := by
  rw [get?]
  cases hl : interner.lookup (contentHash bytes) bytes machine.memory with
  | none => rw [place?_eq_none (rep.lookup_eq_none.1 hl)]
  | some symbol => rw [place?_eq_some rep.nodup (rep.lookup_eq_some.1 hl)]

theorem Represents.resolve_eq_item
    (rep : Represents contentHash interner machine.memory strings) :
    interner.resolve symbol machine.memory = item strings symbol := by
  rw [item]
  cases hget : strings[symbol.index]? with
  | none => exact rep.resolve_eq_error (List.getElem?_eq_none_iff.1 hget)
  | some bytes => exact rep.resolve_eq_ok hget

theorem Represents.resolveCString_eq_item
    (rep : Represents contentHash interner machine.memory strings) :
    interner.resolveCString symbol machine.memory =
      (item strings symbol).map fun bytes => bytes.takeWhile (· ≠ 0) := by
  have hresolve : interner.resolve symbol machine.memory = item strings symbol :=
    rep.resolve_eq_item
  rw [resolveCString]
  rw [resolve] at hresolve
  cases hentry : interner.entry symbol with
  | error violation =>
    rw [hentry] at hresolve
    rw [← hresolve]
    rfl
  | ok entry =>
    obtain ⟨bytes, hget, hholds⟩ := rep.entries _ entry (entry_eq_ok.1 hentry)
    rw [item, hget]
    exact congrArg Except.ok (hholds.cstring_eq rep.arena (.refl _ _))

theorem use_answer (h : Refines contract 0 contentHash interner machine strings)
    (fits : Fits factor initialCapacity interner)
    (granted : ¬ use.Refused contentHash allocator interner machine)
    (hp : use.perform contentHash allocator interner machine = (answer, interner', machine')) :
    answer = (use.answer factor initialCapacity strings).1 ∧
      Refines contract 0 contentHash interner' machine'
        (use.answer factor initialCapacity strings).2 ∧
      Fits factor initialCapacity interner' := by
  have rep := h.1
  cases use with
  | intern bytes =>
    rcases hi : interner.intern contentHash allocator bytes machine with ⟨result, next, served⟩
    rw [Use.perform, Operation.perform, hi] at hp
    obtain ⟨rfl, rfl, rfl⟩ := hp
    have hfits := stepwise_fits.intern hi fits
    obtain ⟨strings', hissued, hrefines⟩ := intern_refines h hi
    rw [Use.answer, ← rep.get?_eq_place?]
    cases hl : interner.get? contentHash bytes machine.memory with
    | some symbol =>
      have hplace := rep.lookup_eq_some.1 hl
      rw [intern_present rep hplace] at hi
      obtain ⟨rfl, rfl, rfl⟩ := hi
      exact ⟨rfl, h, hfits⟩
    | none =>
      rcases hins : interner.insert allocator (contentHash bytes) bytes machine with
        ⟨inserted, last⟩
      have hresult := insert_result rep fits (fun hrefused => granted ⟨hl, hrefused⟩) hins
      have hsame := intern_result hl hi
      rw [hins] at hsame
      obtain rfl : inserted = result := hsame
      rw [rep.count_eq] at hresult
      cases hs : shortage? factor initialCapacity strings.length with
      | some failure =>
        rw [hs] at hresult
        subst hresult
        cases hissued with
        | failed => exact ⟨rfl, hrefines, hfits⟩
      | none =>
        rw [hs] at hresult
        subst hresult
        cases hissued with
        | present hget => exact absurd (List.mem_of_getElem? hget) (rep.lookup_eq_none.1 hl)
        | appended => exact ⟨rfl, hrefines, hfits⟩
  | get bytes =>
    obtain ⟨rfl, rfl, rfl⟩ := hp
    exact ⟨congrArg Answer.lookup rep.get?_eq_place?, h, fits⟩
  | resolve symbol =>
    obtain ⟨rfl, rfl, rfl⟩ := hp
    exact ⟨congrArg Answer.bytes rep.resolve_eq_item, h, fits⟩
  | resolveCString symbol =>
    obtain ⟨rfl, rfl, rfl⟩ := hp
    exact ⟨congrArg Answer.bytes rep.resolveCString_eq_item, h, fits⟩
  | list =>
    obtain ⟨rfl, rfl, rfl⟩ := hp
    exact ⟨congrArg Answer.listing rep.toList_eq, h, fits⟩
  | count =>
    obtain ⟨rfl, rfl, rfl⟩ := hp
    exact ⟨congrArg Answer.count rep.count_eq, h, fits⟩

theorem use_refines (h : Refines contract 0 contentHash interner machine strings)
    (hp : use.perform contentHash allocator interner machine = (answer, interner', machine')) :
    ∃ strings', Refines contract 0 contentHash interner' machine' strings' ∧
      ∀ (symbol : Symbol) bytes, strings'[symbol.index]? = some bytes →
        strings[symbol.index]? = some bytes ∨
          use = .intern bytes ∧ answer = .symbol (.ok symbol) := by
  cases use with
  | intern bytes =>
    rcases hi : interner.intern contentHash allocator bytes machine with ⟨result, next, served⟩
    rw [Use.perform, Operation.perform, hi] at hp
    obtain ⟨rfl, rfl, rfl⟩ := hp
    obtain ⟨strings', hissued, hrefines⟩ := intern_refines h hi
    refine ⟨strings', hrefines, fun symbol found hget => ?_⟩
    cases hissued with
    | present | failed => exact .inl hget
    | @appended issued hnew hindex =>
      obtain hlt | hge := Nat.lt_or_ge symbol.index strings.length
      · rw [List.getElem?_append_left hlt] at hget
        exact .inl hget
      · rw [List.getElem?_append_right hge, List.getElem?_singleton] at hget
        split at hget
        next hlast =>
          obtain rfl := Option.some.inj hget
          have hsame := Nat.le_antisymm hge (Nat.sub_eq_zero_iff_le.1 hlast)
          obtain rfl : issued = symbol :=
            congrArg Symbol.mk (UInt32.toNat_inj.1 (hindex.trans hsame))
          exact .inr ⟨rfl, rfl⟩
        · cases hget
  | get | resolve | resolveCString | list | count =>
    obtain ⟨-, rfl, rfl⟩ := hp
    exact ⟨strings, h, fun _ _ hget => .inl hget⟩

/-- As long as nothing is refused, an interner without symbols answers like the empty list. -/
theorem replay_runFrom (h : Refines contract 0 contentHash interner machine [])
    (fits : Fits factor initialCapacity interner)
    (run : RunFrom (fun use : Use => use.perform contentHash allocator)
      (fun use interner machine => ¬ use.Refused contentHash allocator interner machine)
      (fun interner => contract.Aside interner.grants) interner machine events later after) :
    events = (replay factor initialCapacity (events.map Prod.fst)).1 ∧
      Refines contract 0 contentHash later after
        (replay factor initialCapacity (events.map Prod.fst)).2 ∧
      Fits factor initialCapacity later := by
  induction run with
  | nothing => exact ⟨rfl, h, fits⟩
  | perform use _ hgranted hp ih =>
    obtain ⟨hevents, hrefines, hfits⟩ := ih
    obtain ⟨hanswer, hrefines', hfits'⟩ := use_answer hrefines hfits hgranted hp
    refine ⟨?_, hrefines', hfits'⟩
    rw [List.map_cons, Interner.replay, ← hevents, ← hanswer]
  | others _ ho ih =>
    obtain ⟨hevents, hrefines, hfits⟩ := ih
    exact ⟨hevents, hrefines.others ho, hfits⟩

/-- Whatever is refused, all that is known after an interner had no symbols was interned since. -/
theorem refines_runFrom {allowed : Use → Interner → Machine σ → Prop}
    (h : Refines contract 0 contentHash interner machine [])
    (run : RunFrom (fun use : Use => use.perform contentHash allocator) allowed
      (fun interner => contract.Aside interner.grants) interner machine events later after) :
    ∃ strings, Refines contract 0 contentHash later after strings ∧
      ∀ (symbol : Symbol) bytes, strings[symbol.index]? = some bytes →
        (Use.intern bytes, Answer.symbol (.ok symbol)) ∈ events := by
  induction run with
  | nothing => exact ⟨[], h, by simp⟩
  | perform use _ _ hp ih =>
    obtain ⟨strings, hrefines, hsince⟩ := ih
    obtain ⟨strings', hrefines', hadded⟩ := use_refines hrefines hp
    refine ⟨strings', hrefines', fun symbol bytes hget => ?_⟩
    obtain hbefore | ⟨rfl, rfl⟩ := hadded symbol bytes hget
    · exact List.mem_cons_of_mem _ (hsince symbol bytes hbefore)
    · exact List.mem_cons_self
  | others _ ho ih =>
    obtain ⟨strings, hrefines, hsince⟩ := ih
    exact ⟨strings, hrefines.others ho, hsince⟩

/-- All that an interner knows was interned in these uses: what it finds, resolves and lists, and
what its entries and taken slots stand for. -/
structure InternedIn (contentHash : ContentHash) (events : List (Use × Answer)) (interner : Interner)
    (memory : Memory) : Prop where
  found : ∀ bytes symbol, interner.get? contentHash bytes memory = some symbol →
    (Use.intern bytes, Answer.symbol (.ok symbol)) ∈ events
  resolved : ∀ symbol bytes, interner.resolve symbol memory = .ok bytes →
    (Use.intern bytes, Answer.symbol (.ok symbol)) ∈ events
  listed : ∀ symbol bytes, (symbol, bytes) ∈ interner.toList memory →
    (Use.intern bytes, Answer.symbol (.ok symbol)) ∈ events
  entries : ∀ i entry, interner.table.get? i = some entry → ∃ bytes,
    (Use.intern bytes, Answer.symbol (.ok ⟨UInt32.ofNat i⟩)) ∈ events ∧
      Holds interner.arena memory entry bytes
  slots : ∀ slot ∈ SymbolMap.taken interner.map.slots, ∃ bytes,
    (Use.intern bytes, Answer.symbol (.ok ⟨slot.id⟩)) ∈ events ∧ slot.hash = contentHash bytes

theorem Represents.internedIn (rep : Represents contentHash interner machine.memory strings)
    (hsince : ∀ (symbol : Symbol) bytes, strings[symbol.index]? = some bytes →
      (Use.intern bytes, Answer.symbol (.ok symbol)) ∈ events) :
    InternedIn contentHash events interner machine.memory := by
  have hplace : ∀ i bytes, strings[i]? = some bytes →
      (Use.intern bytes, Answer.symbol (.ok ⟨UInt32.ofNat i⟩)) ∈ events := fun i bytes hget =>
    hsince ⟨UInt32.ofNat i⟩ bytes (by rwa [Symbol.index, rep.toNat_index hget])
  refine ⟨fun bytes symbol hfound => hsince _ _ (rep.lookup_eq_some.1 hfound), ?_, ?_, ?_, ?_⟩
  · intro symbol bytes hok
    rw [rep.resolve_eq_item, item] at hok
    cases hget : strings[symbol.index]? with
    | none =>
      rw [hget] at hok
      cases hok
    | some found =>
      rw [hget] at hok
      obtain rfl := Except.ok.inj hok
      exact hsince symbol found hget
  · intro symbol bytes hmem
    rw [rep.toList_eq, List.mem_map] at hmem
    obtain ⟨⟨found, i⟩, hitem, hsame⟩ := hmem
    obtain ⟨rfl, rfl⟩ := Prod.mk.inj hsame
    exact hplace i found (List.mem_zipIdx_iff_getElem?.1 hitem)
  · intro i entry hentry
    obtain ⟨bytes, hget, hholds⟩ := rep.entries i entry hentry
    exact ⟨bytes, hplace i bytes hget, hholds⟩
  · intro slot hslot
    rw [rep.taken_eq, mem_slotsOf] at hslot
    obtain ⟨i, bytes, hget, rfl⟩ := hslot
    rw [Slot.id_ofId]
    exact ⟨bytes, hplace i bytes hget, rfl⟩

/-- After a clear or a deinit an interner answers like a new one, as long as nothing is refused.
What a clear keeps are the buffers and the newest chunk. -/
theorem forgets_symbols (contract : allocator.Contract)
    (hstart : contract.shared.holds 0 start.store) {history : List (Operation × Answer)}
    (run : Run contentHash allocator contract.shared.Aside start history interner machine)
    {allocator' : Allocator τ} (contract' : allocator'.Contract) {start' between : Machine τ}
    {fresh : Interner} (hstart' : contract'.shared.holds 0 start'.store)
    (created : Run contentHash allocator' contract'.shared.Aside start' [] fresh between)
    (hfactor : fresh.map.loadFactor = interner.map.loadFactor)
    (hinitial : fresh.table.initialCapacity = interner.table.initialCapacity) :
    (∀ cleared released new last last' last'' after after' after'',
      RunFrom (fun use : Use => use.perform contentHash allocator)
        (fun use interner machine => ¬ use.Refused contentHash allocator interner machine)
        (fun interner => contract.shared.Aside interner.grants)
        (interner.clear allocator machine).1 (interner.clear allocator machine).2
        cleared last after →
      RunFrom (fun use : Use => use.perform contentHash allocator)
        (fun use interner machine => ¬ use.Refused contentHash allocator interner machine)
        (fun interner => contract.shared.Aside interner.grants)
        (interner.deinit allocator machine).1 (interner.deinit allocator machine).2
        released last' after' →
      RunFrom (fun use : Use => use.perform contentHash allocator')
        (fun use interner machine => ¬ use.Refused contentHash allocator' interner machine)
        (fun interner => contract'.shared.Aside interner.grants)
        fresh between new last'' after'' →
      cleared.map Prod.fst = new.map Prod.fst → released.map Prod.fst = new.map Prod.fst →
      cleared = new ∧ released = new ∧
        new = (replay fresh.map.loadFactor fresh.table.initialCapacity (new.map Prod.fst)).1) ∧
    (∀ empty emptied, (empty, emptied) = interner.clear allocator machine ∨
        (empty, emptied) = interner.deinit allocator machine →
      ∀ events later after, RunFrom (fun use : Use => use.perform contentHash allocator)
          (fun _ _ _ => True) (fun interner => contract.shared.Aside interner.grants)
          empty emptied events later after →
        InternedIn contentHash events later after.memory) ∧
    (interner.clear allocator machine).1.table.buffer = interner.table.buffer ∧
    (interner.clear allocator machine).1.map.buffer = interner.map.buffer ∧
    (interner.clear allocator machine).1.arena.chunks.map Chunk.grant =
      (interner.arena.chunks.take 1).map Chunk.grant ∧
    AgreeOn (interner.clear allocator machine).1.arena.grants machine.memory
      (interner.clear allocator machine).2.memory := by
  obtain ⟨strings, -, hrefines⟩ := run.refines hstart
  obtain ⟨_, hnil, hfresh⟩ := created.refines hstart'
  cases hnil
  have hclear := clear_refines hrefines
  have hdeinit := deinit_refines hrefines
  have hout := hrefines.2
  rw [grants_arena] at hout
  refine ⟨?_, ?_, rfl, rfl, Region.reset_keeps contract.shared hout rfl⟩
  · intro cleared released new last last' last'' after after' after'' hcleared hreleased hnew
      hsame hsame'
    have hlist := (replay_runFrom hfresh created.fits hnew).1
    have hfirst := (replay_runFrom hclear (run.fits.clear allocator machine) hcleared).1
    have hsecond := (replay_runFrom hdeinit (run.fits.deinit allocator machine) hreleased).1
    rw [hsame, ← hfactor, ← hinitial, ← hlist] at hfirst
    rw [hsame', ← hfactor, ← hinitial, ← hlist] at hsecond
    exact ⟨hfirst, hsecond, hlist⟩
  · rintro empty emptied (hempty | hempty) events later after hrun
    all_goals obtain ⟨rfl, rfl⟩ := Prod.mk.inj hempty
    · obtain ⟨strings, hlater, hsince⟩ := refines_runFrom hclear hrun
      exact hlater.1.internedIn hsince
    · obtain ⟨strings, hlater, hsince⟩ := refines_runFrom hdeinit hrun
      exact hlater.1.internedIn hsince

theorem forgets_symbols_reissued : ∃ (later : Interner) (after : Machine Platform),
    later.count = 1 ∧
      InternedIn (fun _ => 7) [(.get [97], .lookup none), (.intern [98, 99], .symbol (.ok ⟨0⟩))] later
        after.memory ∧
      [(.get [97], .lookup none), (.intern [98, 99], .symbol (.ok ⟨0⟩))] =
        (replay .threeQuarters 4 [.get [97], .intern [98, 99]]).1 := by
  have hstart : Platform.plainWindowContract.shared.holds 0 (⟨.ofCap 65536, {}⟩ : Platform) :=
    ⟨0, by decide, by decide, by simp⟩
  have hcreated : Run (fun _ => 7) Platform.plainWindow Platform.plainWindowContract.shared.Aside
      { store := ⟨.ofCap 65536, {}⟩ } [] (.create 0x10000 .threeQuarters 4 none)
      { store := ⟨.ofCap 65536, {}⟩ } := .create _ _ _ _
  have hissued := hcreated.perform (.intern [97])
    (Prod.ext rfl rfl : _ = (Answer.symbol (.ok ⟨0⟩), _, _))
  obtain ⟨hsame, hsince, -⟩ := forgets_symbols Platform.plainWindowContract hstart hissued
    Platform.plainWindowContract hstart hcreated rfl rfl
  have hrun : ∀ allowed interner machine next served,
      interner.intern (fun _ => 7) Platform.plainWindow [98, 99] machine = (.ok ⟨0⟩, next, served) →
      next.get? (fun _ => 7) [97] served.memory = none →
      allowed (.intern [98, 99]) interner machine → allowed (.get [97]) next served →
      RunFrom (fun use : Use => use.perform (fun _ => 7) Platform.plainWindow) allowed
        (fun interner => Platform.plainWindowContract.shared.Aside interner.grants) interner machine
        [(.get [97], .lookup none), (.intern [98, 99], .symbol (.ok ⟨0⟩))]
        next served := by
    intro allowed interner machine next served hi hl hintern hget
    refine .perform (Use.get [97]) (.perform (Use.intern [98, 99]) .nothing hintern ?_) hget ?_
    · rw [Use.perform, Operation.perform, hi]
      rfl
    · rw [Use.perform, Operation.perform, hl]
  have hgranted := fun interner machine next served hi hl =>
    hrun (fun use interner machine => ¬ use.Refused (fun _ => 7) Platform.plainWindow interner
      machine) interner machine next served hi hl (Use.not_refused hi) not_false
  have hlist := hsame _ _ _ _ _ _ _ _ _ (hgranted _ _ _ _ (Prod.ext rfl rfl) rfl)
    (hgranted _ _ _ _ (Prod.ext rfl rfl) rfl) (hgranted _ _ _ _ (Prod.ext rfl rfl) rfl) rfl rfl
  refine ⟨_, _, ?_, hsince _ _ (.inl rfl) _ _ _
    (hrun _ _ _ _ _ (Prod.ext rfl rfl) rfl trivial trivial), hlist.2.2⟩
  rfl

end Interner

end ArenaMemory
