import ArenaMemory.Proofs.RunFrom
import ArenaMemory.Proofs.Interner.Intern

namespace ArenaMemory

variable {σ : Type}

namespace Interner

inductive Operation where
  | intern (bytes : List UInt8)
  | internText (text : String)
  /-- The bytes before the first zero. -/
  | internCString (bytes : List UInt8)
  | internMany (items : List (List UInt8))
  | get (bytes : List UInt8)
  | contains (bytes : List UInt8)
  | resolve (symbol : Symbol)
  | count
  | list
  | clear
  | deinit

inductive Answer where
  | symbol (result : Except InternFailure Symbol)
  | symbols (result : Except InternFailure (List Symbol))
  | lookup (result : Option Symbol)
  | present (result : Bool)
  | bytes (result : Except Violation (List UInt8))
  | count (count : Nat)
  | listing (items : List (Symbol × List UInt8))
  | done

def Operation.perform (op : Operation) (contentHash : ContentHash) (allocator : Allocator σ)
    (interner : Interner) (machine : Machine σ) : Answer × Interner × Machine σ :=
  match op with
  | intern bytes => answered (interner.intern contentHash allocator bytes machine)
  | internText text => answered (interner.intern contentHash allocator text.toUTF8.toList machine)
  | internCString bytes =>
    answered (interner.intern contentHash allocator (bytes.takeWhile (· ≠ 0)) machine)
  | internMany items =>
    let (result, interner, machine) := interner.internMany contentHash allocator items machine
    (.symbols result, interner, machine)
  | get bytes => (.lookup (interner.get? contentHash bytes machine.memory), interner, machine)
  | contains bytes =>
    (.present (interner.get? contentHash bytes machine.memory).isSome, interner, machine)
  | resolve symbol => (.bytes (interner.resolve symbol machine.memory), interner, machine)
  | count => (.count interner.count, interner, machine)
  | list => (.listing (interner.toList machine.memory), interner, machine)
  | clear => (.done, interner.clear allocator machine)
  | deinit => (.done, interner.deinit allocator machine)
where
  answered (out : Except InternFailure Symbol × Interner × Machine σ) :
      Answer × Interner × Machine σ :=
    (.symbol out.1, out.2)

/-- Interning into a list: the place of the bytes; or the bytes at the end; or a failure. -/
inductive Issued (strings : List (List UInt8)) (bytes : List UInt8) :
    Except InternFailure Symbol → List (List UInt8) → Prop where
  | present {symbol : Symbol} : strings[symbol.index]? = some bytes →
      Issued strings bytes (.ok symbol) strings
  | appended {symbol : Symbol} : bytes ∉ strings → symbol.index = strings.length →
      Issued strings bytes (.ok symbol) (strings ++ [bytes])
  | failed {failure : InternFailure} : bytes ∉ strings →
      Issued strings bytes (.error failure) strings

inductive IssuedAll : List (List UInt8) → List (List UInt8) → Except InternFailure (List Symbol) →
    List (List UInt8) → Prop where
  | nil {strings} : IssuedAll strings [] (.ok []) strings
  | cons {strings bytes symbol middle items symbols strings'} :
      Issued strings bytes (.ok symbol) middle →
      IssuedAll middle items (.ok symbols) strings' →
      IssuedAll strings (bytes :: items) (.ok (symbol :: symbols)) strings'
  | failed {strings bytes failure strings' items} : Issued strings bytes (.error failure) strings' →
      IssuedAll strings (bytes :: items) (.error failure) strings'
  | failedLater {strings bytes symbol middle items failure strings'} :
      Issued strings bytes (.ok symbol) middle → IssuedAll middle items (.error failure) strings' →
      IssuedAll strings (bytes :: items) (.error failure) strings'

/-- What a list answers to an operation, and the list after it. -/
inductive Answers (strings : List (List UInt8)) :
    Operation → Answer → List (List UInt8) → Prop where
  | intern {bytes result strings'} : Issued strings bytes result strings' →
      Answers strings (.intern bytes) (.symbol result) strings'
  | internText {text result strings'} : Issued strings text.toUTF8.toList result strings' →
      Answers strings (.internText text) (.symbol result) strings'
  | internCString {bytes result strings'} :
      Issued strings (bytes.takeWhile (· ≠ 0)) result strings' →
      Answers strings (.internCString bytes) (.symbol result) strings'
  | internMany {items result strings'} : IssuedAll strings items result strings' →
      Answers strings (.internMany items) (.symbols result) strings'
  | found {bytes symbol} : strings[symbol.index]? = some bytes →
      Answers strings (.get bytes) (.lookup (some symbol)) strings
  | missing {bytes} : bytes ∉ strings → Answers strings (.get bytes) (.lookup none) strings
  | contains {bytes} :
      Answers strings (.contains bytes) (.present (decide (bytes ∈ strings))) strings
  | resolved {symbol bytes} : strings[symbol.index]? = some bytes →
      Answers strings (.resolve symbol) (.bytes (.ok bytes)) strings
  | outOfRange {symbol} : strings.length ≤ symbol.index →
      Answers strings (.resolve symbol)
        (.bytes (.error (.symbolOutOfRange symbol.id strings.length))) strings
  | count : Answers strings .count (.count strings.length) strings
  | list : Answers strings .list
      (.listing (strings.zipIdx.map fun (bytes, i) => (⟨UInt32.ofNat i⟩, bytes))) strings
  | clear : Answers strings .clear .done []
  | deinit : Answers strings .deinit .done []

inductive History : List (Operation × Answer) → List (List UInt8) → Prop where
  | nil : History [] []
  | cons {events strings op answer strings'} : History events strings →
      Answers strings op answer strings' →
      History ((op, answer) :: events) strings'

/-- The runs of an interner on an allocator, with room made at the start or not; `others` says what
may happen elsewhere while the interner has some blocks out. -/
inductive Run (contentHash : ContentHash) (allocator : Allocator σ)
    (others : Multiset Grant → Machine σ → Machine σ → Prop) (start : Machine σ) :
    List (Operation × Answer) → Interner → Machine σ → Prop where
  | create (anchor loadFactor capacity arenaLimit) :
      Run contentHash allocator others start []
        (.create anchor loadFactor capacity arenaLimit) start
  | presize {anchor loadFactor capacity arenaLimit interner machine} :
      (Interner.create anchor loadFactor capacity arenaLimit).presize allocator capacity start =
        (.ok interner, machine) →
      Run contentHash allocator others start [] interner machine
  | perform {events interner machine answer interner' machine'} (op : Operation) :
      Run contentHash allocator others start events interner machine →
      op.perform contentHash allocator interner machine = (answer, interner', machine') →
      Run contentHash allocator others start ((op, answer) :: events) interner' machine'
  | others {events interner machine machine'} :
      Run contentHash allocator others start events interner machine →
      others interner.grants machine machine' →
      Run contentHash allocator others start events interner machine'

variable {contentHash : ContentHash} {allocator : Allocator σ} {contract : allocator.Contract}
  {start machine machine' : Machine σ} {interner interner' : Interner} {memory : Memory}
  {rest : Multiset Grant} {strings : List (List UInt8)} {bytes : List UInt8}
  {events : List (Operation × Answer)} {op : Operation} {answer : Answer}

/-- The interner represents the list, and its blocks are out. -/
def Refines (contract : allocator.Contract) (rest : Multiset Grant) (contentHash : ContentHash)
    (interner : Interner) (machine : Machine σ) (strings : List (List UInt8)) : Prop :=
  Represents contentHash interner machine.memory strings ∧
    contract.holds (interner.grants + rest) machine.store

theorem represents_nil (arena : interner.arena.Valid) (map : interner.map.Valid)
    (htaken : SymbolMap.taken interner.map.slots = 0)
    (hinitial : 0 < interner.table.initialCapacity) (hentries : interner.table.entries = #[]) :
    Represents contentHash interner memory [] where
  nodup := List.nodup_nil
  length_le := Nat.zero_le _
  arena := arena
  map := map
  table := ⟨hinitial, by rw [SymbolTable.count, hentries]; exact Nat.zero_le _⟩
  taken_eq := htaken
  count_eq := congrArg Array.size hentries
  entries := fun i entry hentry => by simp [SymbolTable.get?, hentries] at hentry

theorem intern_refines {result : Except InternFailure Symbol}
    (h : Refines contract rest contentHash interner machine strings)
    (hi : interner.intern contentHash allocator bytes machine = (result, interner', machine')) :
    ∃ strings', Issued strings bytes result strings' ∧
      Refines contract rest contentHash interner' machine' strings' := by
  obtain ⟨rep, hholds⟩ := h
  cases interned rep hholds hi with
  | present hget => exact ⟨strings, .present hget, rep, hholds⟩
  | failed hnew hgrew => exact ⟨strings, .failed hnew, hgrew.represents rep, hgrew.holds⟩
  | appended hnew hlt hholds' hrep' =>
    refine ⟨strings ++ [bytes], .appended hnew ?_, hrep', hholds'⟩
    exact UInt32.toNat_ofNat_of_lt' (Nat.lt_trans hlt (by decide))

theorem internMany_refines {items : List (List UInt8)} {result : Except InternFailure (List Symbol)}
    (h : Refines contract rest contentHash interner machine strings)
    (hi : interner.internMany contentHash allocator items machine = (result, interner', machine')) :
    ∃ strings', IssuedAll strings items result strings' ∧
      Refines contract rest contentHash interner' machine' strings' := by
  induction items generalizing interner machine strings result interner' machine' with
  | nil =>
    obtain ⟨rfl, rfl, rfl⟩ := hi
    exact ⟨strings, .nil, h⟩
  | cons bytes items ih =>
    rw [internMany] at hi
    rcases hfirst : interner.intern contentHash allocator bytes machine with
      ⟨failure | symbol, next, served⟩
    · obtain ⟨strings', hissued, hrefines⟩ := intern_refines h hfirst
      rw [hfirst] at hi
      obtain ⟨rfl, rfl, rfl⟩ := hi
      exact ⟨strings', .failed hissued, hrefines⟩
    · obtain ⟨middle, hissued, hrefines⟩ := intern_refines h hfirst
      simp only [hfirst] at hi
      rcases hlater : next.internMany contentHash allocator items served with
        ⟨failure | symbols, last, after⟩
      all_goals
        obtain ⟨strings', hall, hdone⟩ := ih hrefines hlater
        rw [hlater] at hi
        obtain ⟨rfl, rfl, rfl⟩ := hi
      · exact ⟨strings', .failedLater hissued hall, hdone⟩
      · exact ⟨strings', .cons hissued hall, hdone⟩

theorem clear_refines (h : Refines contract rest contentHash interner machine strings) :
    Refines contract rest contentHash (interner.clear allocator machine).1
      (interner.clear allocator machine).2 [] := by
  obtain ⟨rep, hholds⟩ := h
  rw [clear]
  rcases hr : interner.arena.reset allocator machine with ⟨arena, machine'⟩
  rw [grants_arena] at hholds
  have hout := Region.reset_holds contract.toLedger hholds hr
  refine ⟨represents_nil (Region.reset_valid rep.arena hr).1 (SymbolMap.valid_clear _)
    (SymbolMap.taken_clear _) rep.table.initial_pos rfl, ?_⟩
  rw [grants_arena]
  exact hout

theorem deinit_holds {ledger : allocator.Ledger}
    (h : ledger.holds (interner.grants + rest) machine.store) :
    ledger.holds rest (interner.deinit allocator machine).2.store := by
  rw [grants_arena, add_assoc] at h
  have harena := Region.deinit_holds ledger h
  have hmap := Buffer.release_holds ledger harena
  exact Buffer.release_holds ledger hmap

theorem grants_deinit : (interner.deinit allocator machine).1.grants = 0 := rfl

theorem deinit_refines (h : Refines contract rest contentHash interner machine strings) :
    Refines contract rest contentHash (interner.deinit allocator machine).1
      (interner.deinit allocator machine).2 [] := by
  obtain ⟨rep, hholds⟩ := h
  refine ⟨represents_nil (Region.valid_of_chunks_nil rfl)
    (SymbolMap.valid_empty interner.map.loadFactor) rfl rep.table.initial_pos rfl, ?_⟩
  rw [grants_deinit, zero_add]
  exact deinit_holds hholds

theorem create_refines {anchor : Word} {loadFactor : LoadFactor} {capacity : Nat}
    {arenaLimit : Option Word} (h : contract.holds rest machine.store) :
    Refines contract rest contentHash (.create anchor loadFactor capacity arenaLimit) machine
      [] := by
  refine ⟨represents_nil (Region.valid_of_chunks_nil rfl) (SymbolMap.valid_empty _) rfl
    (Nat.lt_of_lt_of_le Nat.zero_lt_one (Nat.le_max_right capacity 1)) rfl, ?_⟩
  have hnone : (Interner.create anchor loadFactor capacity arenaLimit).grants = 0 := rfl
  rwa [hnone, zero_add]

theorem presize_refines {capacity : Nat}
    (h : Refines contract rest contentHash interner machine strings)
    (hp : interner.presize allocator capacity machine = (.ok interner', machine')) :
    Refines contract rest contentHash interner' machine' strings := by
  obtain ⟨rep, hholds⟩ := h
  have hpresizing := hp ▸ presizing allocator interner capacity machine
  cases hpresizing with
  | nothing => exact ⟨rep, hholds⟩
  | made _ ht hm =>
    have hgrew := grew_both rep hholds ht hm
    exact ⟨hgrew.represents rep, hgrew.holds⟩

theorem Refines.others (h : Refines contract 0 contentHash interner machine strings)
    (ho : contract.holds interner.grants machine'.store ∧
      AgreeOn interner.grants machine.memory machine'.memory) :
    Refines contract 0 contentHash interner machine' strings := by
  have harena : AgreeOn interner.arena.grants machine.memory machine'.memory := ho.2.left.left
  refine ⟨h.1.agree harena, ?_⟩
  rw [add_zero]
  exact ho.1

theorem answered_refines (h : Refines contract rest contentHash interner machine strings)
    (hp : Operation.perform.answered (interner.intern contentHash allocator bytes machine) =
      (answer, interner', machine')) :
    ∃ result strings', answer = .symbol result ∧ Issued strings bytes result strings' ∧
      Refines contract rest contentHash interner' machine' strings' := by
  rcases hi : interner.intern contentHash allocator bytes machine with ⟨result, next, served⟩
  rw [hi] at hp
  obtain ⟨rfl, rfl, rfl⟩ := hp
  obtain ⟨strings', hissued, hrefines⟩ := intern_refines h hi
  exact ⟨result, strings', rfl, hissued, hrefines⟩

theorem perform_refines (h : Refines contract rest contentHash interner machine strings)
    (hp : op.perform contentHash allocator interner machine = (answer, interner', machine')) :
    ∃ strings', Answers strings op answer strings' ∧
      Refines contract rest contentHash interner' machine' strings' := by
  have rep := h.1
  cases op with
  | intern bytes =>
    obtain ⟨result, strings', rfl, hissued, hrefines⟩ := answered_refines h hp
    exact ⟨strings', .intern hissued, hrefines⟩
  | internText text =>
    obtain ⟨result, strings', rfl, hissued, hrefines⟩ := answered_refines h hp
    exact ⟨strings', .internText hissued, hrefines⟩
  | internCString bytes =>
    obtain ⟨result, strings', rfl, hissued, hrefines⟩ := answered_refines h hp
    exact ⟨strings', .internCString hissued, hrefines⟩
  | internMany items =>
    rcases hi : interner.internMany contentHash allocator items machine with ⟨result, next, served⟩
    rw [Operation.perform, hi] at hp
    obtain ⟨rfl, rfl, rfl⟩ := hp
    obtain ⟨strings', hissued, hrefines⟩ := internMany_refines h hi
    exact ⟨strings', .internMany hissued, hrefines⟩
  | get bytes =>
    obtain ⟨rfl, rfl, rfl⟩ := hp
    refine ⟨strings, ?_, h⟩
    cases hl : interner.get? contentHash bytes machine.memory with
    | none => exact .missing (rep.lookup_eq_none.1 hl)
    | some symbol => exact .found (rep.lookup_eq_some.1 hl)
  | contains bytes =>
    obtain ⟨rfl, rfl, rfl⟩ := hp
    refine ⟨strings, ?_, h⟩
    have hiff : (interner.get? contentHash bytes machine.memory).isSome =
        decide (bytes ∈ strings) := by
      rw [Bool.eq_iff_iff, decide_eq_true_eq, Option.isSome_iff_ne_none, get?, ne_eq,
        rep.lookup_eq_none, not_not]
    rw [hiff]
    exact .contains
  | resolve symbol =>
    obtain ⟨rfl, rfl, rfl⟩ := hp
    refine ⟨strings, ?_, h⟩
    cases hget : strings[symbol.index]? with
    | none =>
      have hle := List.getElem?_eq_none_iff.1 hget
      rw [rep.resolve_eq_error hle]
      exact .outOfRange hle
    | some bytes =>
      rw [rep.resolve_eq_ok hget]
      exact .resolved hget
  | count =>
    obtain ⟨rfl, rfl, rfl⟩ := hp
    rw [rep.count_eq]
    exact ⟨strings, .count, h⟩
  | list =>
    obtain ⟨rfl, rfl, rfl⟩ := hp
    rw [rep.toList_eq]
    exact ⟨strings, .list, h⟩
  | clear =>
    obtain ⟨rfl, rfl, rfl⟩ := hp
    exact ⟨[], .clear, clear_refines h⟩
  | deinit =>
    obtain ⟨rfl, rfl, rfl⟩ := hp
    exact ⟨[], .deinit, deinit_refines h⟩

/-- Every run of an interner refines a run of a list. -/
theorem Run.refines (hstart : contract.holds 0 start.store)
    (run : Run contentHash allocator (fun mine machine machine' =>
      contract.holds mine machine'.store ∧ AgreeOn mine machine.memory machine'.memory)
      start events interner machine) :
    ∃ strings, History events strings ∧
      Refines contract 0 contentHash interner machine strings := by
  induction run with
  | create => exact ⟨[], .nil, create_refines hstart⟩
  | presize hp => exact ⟨[], .nil, presize_refines (create_refines hstart) hp⟩
  | perform op run hp ih =>
    obtain ⟨strings, hhistory, hrefines⟩ := ih
    obtain ⟨strings', hanswers, hrefines'⟩ := perform_refines hrefines hp
    exact ⟨strings', .cons hhistory hanswers, hrefines'⟩
  | others run ho ih =>
    obtain ⟨strings, hhistory, hrefines⟩ := ih
    exact ⟨strings, hhistory, hrefines.others ho⟩

end Interner

end ArenaMemory
