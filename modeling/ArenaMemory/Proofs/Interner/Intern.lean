import ArenaMemory.Proofs.Interner.Represents

namespace ArenaMemory

variable {σ : Type}

namespace Interner

variable {allocator : Allocator σ}

/-- The interner has more room, what it obtained for that is its own, and no copy has changed. -/
structure Grew (contract : allocator.Contract) (rest : Multiset Grant) (interner : Interner)
    (machine : Machine σ) (interner' : Interner) (machine' : Machine σ) : Prop where
  grown : Grown interner interner'
  holds : contract.holds (interner'.grants + rest) machine'.store
  agree : AgreeOn interner.arena.grants machine.memory machine'.memory

inductive Insertion (allocator : Allocator σ) (interner : Interner) (hash : UInt64)
    (bytes : List UInt8) (machine : Machine σ) :
    Except InternFailure Symbol × Interner × Machine σ → Prop where
  | full : maxSymbols ≤ interner.count →
      Insertion allocator interner hash bytes machine (.error .symbolsExhausted, interner, machine)
  | tableExhausted {failure table machine'} : interner.count < maxSymbols →
      interner.table.reserveOne allocator machine = (.error failure, table, machine') →
      Insertion allocator interner hash bytes machine
        (.error failure, { interner with table }, machine')
  | mapExhausted {failure table map middle machine'} : interner.count < maxSymbols →
      interner.table.reserveOne allocator machine = (.ok (), table, middle) →
      interner.map.reserve allocator 1 middle = (.error failure, map, machine') →
      Insertion allocator interner hash bytes machine
        (.error failure, { interner with table, map }, machine')
  | arenaExhausted {table map arena first second machine'} : interner.count < maxSymbols →
      interner.table.reserveOne allocator machine = (.ok (), table, first) →
      interner.map.reserve allocator 1 first = (.ok (), map, second) →
      interner.arena.dup allocator bytes second = (none, arena, machine') →
      Insertion allocator interner hash bytes machine
        (.error (.arenaExhausted bytes.length), ⟨arena, map, table⟩, machine')
  | issued {table map arena addr first second machine'} : interner.count < maxSymbols →
      interner.table.reserveOne allocator machine = (.ok (), table, first) →
      interner.map.reserve allocator 1 first = (.ok (), map, second) →
      interner.arena.dup allocator bytes second = (some addr, arena, machine') →
      Insertion allocator interner hash bytes machine
        (.ok ⟨UInt32.ofNat interner.count⟩,
          ⟨arena, map.insertUnique hash (UInt32.ofNat interner.count),
            table.push ⟨addr, bytes.length⟩⟩,
          machine')

/-- How making room at the start ends: none was asked for; or one of the two requests failed, and
everything went back; or there is room in both. -/
inductive Presizing (allocator : Allocator σ) (interner : Interner) (capacity : Nat)
    (machine : Machine σ) : Except InternFailure Interner × Machine σ → Prop where
  | nothing : capacity = 0 →
      Presizing allocator interner capacity machine (.ok interner, machine)
  | tableExhausted {failure table machine'} :
      interner.table.reserveOne allocator machine = (.error failure, table, machine') →
      Presizing allocator interner capacity machine
        (.error failure, ({ interner with table }.deinit allocator machine').2)
  | mapExhausted {failure table map middle machine'} :
      interner.table.reserveOne allocator machine = (.ok (), table, middle) →
      interner.map.reserve allocator capacity middle = (.error failure, map, machine') →
      Presizing allocator interner capacity machine
        (.error failure, ({ interner with table, map }.deinit allocator machine').2)
  | made {table map middle machine'} : 0 < capacity →
      interner.table.reserveOne allocator machine = (.ok (), table, middle) →
      interner.map.reserve allocator capacity middle = (.ok (), map, machine') →
      Presizing allocator interner capacity machine (.ok { interner with table, map }, machine')

/-- What interning does: it answers with the place of the bytes and changes nothing; or it fails,
with more room at most; or it appends the bytes. -/
inductive Interned (contentHash : ContentHash) (contract : allocator.Contract)
    (rest : Multiset Grant) (strings : List (List UInt8)) (bytes : List UInt8) (interner : Interner)
    (machine : Machine σ) :
    Except InternFailure Symbol → Interner → Machine σ → Prop where
  | present {symbol} : strings[symbol.index]? = some bytes →
      Interned contentHash contract rest strings bytes interner machine
        (.ok symbol) interner machine
  | failed {failure interner' machine'} : bytes ∉ strings →
      Grew contract rest interner machine interner' machine' →
      Interned contentHash contract rest strings bytes interner machine
        (.error failure) interner' machine'
  | appended {interner' machine'} : bytes ∉ strings → strings.length < maxSymbols →
      contract.holds (interner'.grants + rest) machine'.store →
      Represents contentHash interner' machine'.memory (strings ++ [bytes]) →
      Interned contentHash contract rest strings bytes interner machine
        (.ok ⟨UInt32.ofNat strings.length⟩) interner' machine'

variable {contract : allocator.Contract} {contentHash : ContentHash} {interner interner' : Interner}
  {machine machine' : Machine σ} {rest : Multiset Grant} {strings : List (List UInt8)}
  {bytes : List UInt8} {hash : UInt64} {failure : InternFailure} {symbol : Symbol}
  {table : SymbolTable} {map : SymbolMap} {done : Except InternFailure Unit}

theorem Grew.trans {interner'' : Interner} {machine'' : Machine σ}
    (h : Grew contract rest interner machine interner' machine')
    (h' : Grew contract rest interner' machine' interner'' machine'') :
    Grew contract rest interner machine interner'' machine'' :=
  ⟨h.grown.trans h'.grown, h'.holds, h.agree.trans (h.grown.arena_eq ▸ h'.agree)⟩

theorem Grew.represents (h : Grew contract rest interner machine interner' machine')
    (rep : Represents contentHash interner machine.memory strings) :
    Represents contentHash interner' machine'.memory strings :=
  h.grown.represents rep h.agree

theorem grew_table (rep : Represents contentHash interner machine.memory strings)
    (h : contract.holds (interner.grants + rest) machine.store)
    (ht : interner.table.reserveOne allocator machine = (done, table, machine')) :
    Grew contract rest interner machine { interner with table } machine' := by
  have hreserved := SymbolTable.reserveOne_reserved rep.table ht
  rw [grants_table] at h
  have hout := SymbolTable.reserveOne_holds contract.toLedger rep.table h ht
  have hkept := SymbolTable.reserveOne_kept (contract.keeps _) rep.table
    (contract.beside_of_holds h) ht
  refine ⟨⟨rfl, hreserved.same, rfl, rfl, hreserved.capacity_le, Nat.le_refl _, rep.map⟩, ?_, ?_⟩
  · rw [grants_table]
    exact hout
  · exact hkept.left.left

theorem grew_map {additional : Nat} (rep : Represents contentHash interner machine.memory strings)
    (h : contract.holds (interner.grants + rest) machine.store)
    (hm : interner.map.reserve allocator additional machine = (done, map, machine')) :
    Grew contract rest interner machine { interner with map } machine' := by
  have hreserved := SymbolMap.reserve_reserved rep.map hm
  rw [grants_map] at h
  have hout := SymbolMap.reserve_holds contract.toLedger h hm
  have hkept := SymbolMap.reserve_kept (contract.keeps _) (contract.beside_of_holds h) hm
  refine ⟨⟨rfl, rfl, hreserved.same, hreserved.taken_eq, Nat.le_refl _, hreserved.capacity_le,
    hreserved.valid⟩, ?_, ?_⟩
  · rw [grants_map]
    exact hout
  · exact hkept.left.left

theorem insertion (allocator : Allocator σ) (interner : Interner) (hash : UInt64)
    (bytes : List UInt8) (machine : Machine σ) :
    Insertion allocator interner hash bytes machine
      (interner.insert allocator hash bytes machine) := by
  rw [insert]
  dsimp only
  split
  next hfull => exact .full hfull
  next hcount =>
    have hlt := Nat.lt_of_not_le hcount
    rcases ht : interner.table.reserveOne allocator machine with ⟨_ | _, table, first⟩
    · exact .tableExhausted hlt ht
    · dsimp only
      rcases hm : interner.map.reserve allocator 1 first with ⟨_ | _, map, second⟩
      · exact .mapExhausted hlt ht hm
      · dsimp only
        rcases hd : interner.arena.dup allocator bytes second with ⟨_ | addr, arena, machine'⟩
        · exact .arenaExhausted hlt ht hm hd
        · exact .issued hlt ht hm hd

theorem presizing (allocator : Allocator σ) (interner : Interner) (capacity : Nat)
    (machine : Machine σ) : Presizing allocator interner capacity machine
      (interner.presize allocator capacity machine) := by
  rw [presize]
  split
  next hzero => exact .nothing hzero
  next hne =>
    rcases ht : interner.table.reserveOne allocator machine with ⟨_ | _, table, first⟩
    · exact .tableExhausted ht
    · dsimp only
      rcases hm : interner.map.reserve allocator capacity first with ⟨_ | _, map, second⟩
      · exact .mapExhausted ht hm
      · exact .made (Nat.pos_of_ne_zero hne) ht hm

theorem presize_arena {capacity : Nat}
    (hp : interner.presize allocator capacity machine = (.ok interner', machine')) :
    interner'.arena = interner.arena := by
  have hpresizing := hp ▸ presizing allocator interner capacity machine
  cases hpresizing with
  | nothing | made => rfl

theorem grew_both {first second : Machine σ} {additional : Nat}
    (rep : Represents contentHash interner machine.memory strings)
    (h : contract.holds (interner.grants + rest) machine.store) {early : Except InternFailure Unit}
    (ht : interner.table.reserveOne allocator machine = (early, table, first))
    (hm : interner.map.reserve allocator additional first = (done, map, second)) :
    Grew contract rest interner machine { interner with table, map } second := by
  have htable := grew_table rep h ht
  exact htable.trans (grew_map (htable.represents rep) htable.holds hm)

theorem insert_failed (rep : Represents contentHash interner machine.memory strings)
    (h : contract.holds (interner.grants + rest) machine.store)
    (hi : interner.insert allocator hash bytes machine = (.error failure, interner', machine')) :
    Grew contract rest interner machine interner' machine' := by
  have hinsertion := insertion allocator interner hash bytes machine
  rw [hi] at hinsertion
  cases hinsertion with
  | full => exact ⟨.refl rep.map, h, .refl _ _⟩
  | tableExhausted _ ht => exact grew_table rep h ht
  | mapExhausted _ ht hm => exact grew_both rep h ht hm
  | @arenaExhausted table map arena _ second _ _ ht hm hd =>
    have hgrew := grew_both rep h ht hm
    have hbefore := hgrew.holds
    rw [grants_arena] at hbefore
    have hout := Region.allocCopy_holds contract.toLedger hbefore hd
    obtain ⟨rfl, hagree⟩ := Region.allocCopy_refused contract rep.arena hbefore hd
    rw [← grants_arena { interner with table, map }] at hout
    exact hgrew.trans ⟨.refl hgrew.grown.map, hout, hagree⟩

theorem insert_issued (rep : Represents contentHash interner machine.memory strings)
    (hnew : bytes ∉ strings) (h : contract.holds (interner.grants + rest) machine.store)
    (hi : interner.insert allocator (contentHash bytes) bytes machine =
      (.ok symbol, interner', machine')) :
    symbol = ⟨UInt32.ofNat strings.length⟩ ∧ strings.length < maxSymbols ∧
      contract.holds (interner'.grants + rest) machine'.store ∧
      Represents contentHash interner' machine'.memory (strings ++ [bytes]) := by
  have hinsertion := insertion allocator interner (contentHash bytes) bytes machine
  rw [hi] at hinsertion
  cases hinsertion with
  | @issued table map arena addr first second _ hcount ht hm hd =>
    have hgrew := grew_both rep h ht hm
    have hrep := hgrew.represents rep
    have htable := SymbolTable.reserveOne_reserved rep.table ht
    have hmap := SymbolMap.reserve_reserved rep.map hm
    have hbefore := hgrew.holds
    rw [grants_arena] at hbefore
    have hout := Region.allocCopy_holds contract.toLedger hbefore hd
    have hcopied := Region.allocCopy_copied contract rep.arena (by simp) hbefore hd
    have hcount_eq : ({ interner with table, map } : Interner).count = interner.count :=
      hgrew.grown.count_eq
    have htable_room : table.count < table.capacity := by
      have hroom := htable.room rfl
      rw [htable.same] at hroom ⊢
      exact hroom
    have hmap_room : map.count + 1 ≤ map.loadFactor.threshold map.capacity := by
      have hroom := hmap.room rfl
      have hsame : map.count = interner.map.count := by rw [hmap.same]
      rwa [hsame]
    have happended := hrep.append hnew (hcount_eq ▸ hcount) htable_room hmap_room hcopied
    rw [append, hcount_eq] at happended
    refine ⟨by rw [rep.count_eq], rep.count_eq ▸ hcount, ?_, happended⟩
    rw [grants_arena]
    exact hout

theorem interned {result : Except InternFailure Symbol}
    (rep : Represents contentHash interner machine.memory strings)
    (h : contract.holds (interner.grants + rest) machine.store)
    (hi : interner.intern contentHash allocator bytes machine = (result, interner', machine')) :
    Interned contentHash contract rest strings bytes interner machine result interner'
      machine' := by
  unfold intern at hi
  dsimp only at hi
  cases hl : interner.lookup (contentHash bytes) bytes machine.memory with
  | some symbol =>
    rw [hl] at hi
    obtain ⟨rfl, rfl, rfl⟩ := hi
    exact .present (rep.lookup_eq_some.1 hl)
  | none =>
    rw [hl] at hi
    have hnew := rep.lookup_eq_none.1 hl
    rcases hins : interner.insert allocator (contentHash bytes) bytes machine with
      ⟨failure | symbol, grown, served⟩
    · rw [hins] at hi
      obtain ⟨rfl, rfl, rfl⟩ := hi
      -- the failure adds an event, which neither the store nor the bytes show
      obtain ⟨hgrown, hholds, hagree⟩ := insert_failed rep h hins
      exact .failed hnew ⟨hgrown, hholds, hagree⟩
    · rw [hins] at hi
      obtain ⟨rfl, rfl, rfl⟩ := hi
      obtain ⟨rfl, hlt, hholds, hrep⟩ := insert_issued rep hnew h hins
      exact .appended hnew hlt hholds hrep

/-- A relation between an interner and its machine before and after that holds when nothing is done
and after an insertion, and of one thing after another. -/
structure Stepwise (allocator : Allocator σ)
    (relation : Interner → Machine σ → Interner → Machine σ → Prop) : Prop where
  refl : ∀ interner machine, relation interner machine interner machine
  trans : ∀ {interner machine interner' machine' interner'' machine''},
    relation interner machine interner' machine' →
    relation interner' machine' interner'' machine'' →
    relation interner machine interner'' machine''
  insert : ∀ {interner hash bytes machine result interner' machine'},
    interner.insert allocator hash bytes machine = (result, interner', machine') →
    ∀ trace, relation interner machine interner' { machine' with trace }

namespace Stepwise

variable {relation : Interner → Machine σ → Interner → Machine σ → Prop}
  (stepwise : Stepwise allocator relation)
include stepwise

theorem intern {result : Except InternFailure Symbol}
    (hi : interner.intern contentHash allocator bytes machine = (result, interner', machine')) :
    relation interner machine interner' machine' := by
  unfold Interner.intern at hi
  dsimp only at hi
  cases hl : interner.lookup (contentHash bytes) bytes machine.memory with
  | some symbol =>
    rw [hl] at hi
    obtain ⟨rfl, rfl, rfl⟩ := hi
    exact stepwise.refl _ _
  | none =>
    rw [hl] at hi
    rcases hins : interner.insert allocator (contentHash bytes) bytes machine with
      ⟨failure | symbol, next, served⟩
    all_goals
      rw [hins] at hi
      obtain ⟨rfl, rfl, rfl⟩ := hi
      exact stepwise.insert hins _

theorem internMany {items : List (List UInt8)} {result : Except InternFailure (List Symbol)}
    (hi : interner.internMany contentHash allocator items machine = (result, interner', machine')) :
    relation interner machine interner' machine' := by
  induction items generalizing interner machine result interner' machine' with
  | nil =>
    obtain ⟨rfl, rfl, rfl⟩ := hi
    exact stepwise.refl _ _
  | cons bytes items ih =>
    rw [Interner.internMany] at hi
    rcases hfirst : interner.intern contentHash allocator bytes machine with
      ⟨failure | symbol, next, served⟩
    · rw [hfirst] at hi
      obtain ⟨rfl, rfl, rfl⟩ := hi
      exact stepwise.intern hfirst
    · simp only [hfirst] at hi
      rcases hlater : next.internMany contentHash allocator items served with
        ⟨failure | symbols, last, after⟩
      all_goals
        rw [hlater] at hi
        obtain ⟨rfl, rfl, rfl⟩ := hi
        exact stepwise.trans (stepwise.intern hfirst) (ih hlater)

end Stepwise

theorem intern_present (rep : Represents contentHash interner machine.memory strings)
    (hget : strings[symbol.index]? = some bytes) (other : Allocator σ) :
    interner.intern contentHash other bytes machine = (.ok symbol, interner, machine) := by
  unfold intern
  dsimp only
  rw [rep.lookup_eq_some.2 hget]

end Interner

end ArenaMemory
