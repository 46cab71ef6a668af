import Mathlib.Data.List.TakeWhile
import ArenaMemory.Proofs.Allocator.Window
import ArenaMemory.Proofs.Interner.Copies

namespace ArenaMemory

variable {σ : Type}

namespace SymbolTable

theorem reserveOne_entries {allocator : Allocator σ} {table table' : SymbolTable}
    {machine machine' : Machine σ} {result : Except InternFailure Unit}
    (ht : table.reserveOne allocator machine = (result, table', machine')) :
    table'.entries = table.entries := by
  rw [reserveOne] at ht
  dsimp only at ht
  split at ht
  · obtain ⟨-, rfl, -⟩ := ht
    rfl
  · split at ht
    all_goals
      obtain ⟨-, rfl, -⟩ := ht
      rfl

end SymbolTable

namespace Interner

variable {contentHash : ContentHash} {allocator : Allocator σ} {contract : allocator.Contract}
  {start machine machine' after : Machine σ} {interner interner' later : Interner}
  {strings strings' : List (List UInt8)} {bytes : List UInt8} {symbol : Symbol} {entry : Entry}
  {events : List (Operation × Answer)} {op : Operation} {answer : Answer} {memory : Memory}

theorem Issued.extends {result : Except InternFailure Symbol}
    (h : Issued strings bytes result strings') : strings <+: strings' := by
  cases h with
  | present | failed => exact List.prefix_rfl
  | appended => exact List.prefix_append strings [bytes]

theorem IssuedAll.extends {items : List (List UInt8)} {result : Except InternFailure (List Symbol)}
    (h : IssuedAll strings items result strings') : strings <+: strings' := by
  induction h with
  | nil => exact List.prefix_rfl
  | cons hfirst _ ih | failedLater hfirst _ ih => exact hfirst.extends.trans ih
  | failed hfirst => exact hfirst.extends

theorem Answers.extends (hop : op.forgets = false) (h : Answers strings op answer strings') :
    strings <+: strings' := by
  cases h with
  | intern hissued | internText hissued | internCString hissued => exact hissued.extends
  | internMany hissued => exact hissued.extends
  | found | missing | contains | resolved | outOfRange | count | list => exact List.prefix_rfl
  | clear | deinit => cases hop

theorem stepwise_entries : Stepwise allocator fun interner _ interner' _ =>
    interner.table.entries.toList <+: interner'.table.entries.toList where
  refl _ _ := List.prefix_rfl
  trans h h' := h.trans h'
  insert := by
    intro interner hash bytes machine result interner' machine' hi trace
    have hinsertion := insertion allocator interner hash bytes machine
    rw [hi] at hinsertion
    cases hinsertion with
    | full => exact List.prefix_rfl
    | tableExhausted _ ht | mapExhausted _ ht hm | arenaExhausted _ ht hm hd =>
      rw [← SymbolTable.reserveOne_entries ht]
    | issued _ ht hm hd =>
      rw [← SymbolTable.reserveOne_entries ht, SymbolTable.push, Array.toList_push]
      exact List.prefix_append _ _

theorem perform_entries (hop : op.forgets = false)
    (hp : op.perform contentHash allocator interner machine = (answer, interner', machine')) :
    interner.table.entries.toList <+: interner'.table.entries.toList := by
  cases op with
  | intern bytes | internText text | internCString bytes =>
    exact stepwise_entries.intern (Prod.ext rfl (Prod.mk.inj hp).2)
  | internMany items => exact stepwise_entries.internMany (Prod.ext rfl (Prod.mk.inj hp).2)
  | get bytes | contains bytes | resolve symbol | count | list =>
    obtain ⟨-, rfl, -⟩ := hp
    exact List.prefix_rfl
  | clear | deinit => cases hop

theorem extends_runFrom (h : Refines contract 0 contentHash interner machine strings)
    (run : RunFrom (fun op : Operation => op.perform contentHash allocator)
      (fun op _ _ => op.forgets = false) (fun interner => contract.Aside interner.grants) interner
      machine events later after) :
    interner.table.entries.toList <+: later.table.entries.toList ∧
      ∃ strings', strings <+: strings' ∧
        Refines contract 0 contentHash later after strings' := by
  refine run.preserves (fun later after =>
    interner.table.entries.toList <+: later.table.entries.toList ∧
      ∃ strings', strings <+: strings' ∧ Refines contract 0 contentHash later after strings')
    ⟨List.prefix_rfl, strings, List.prefix_rfl, h⟩ ?_ ?_
  · rintro op before between answer after later ⟨hentries, strings', hstrings, hrefines⟩ hop hp
    obtain ⟨strings'', hanswers, hrefines'⟩ := perform_refines hrefines hp
    exact ⟨hentries.trans (perform_entries hop hp), strings'',
      hstrings.trans (hanswers.extends hop), hrefines'⟩
  · rintro after between later ⟨hentries, strings', hstrings, hrefines⟩ ho
    exact ⟨hentries, strings', hstrings, hrefines.others ho⟩

theorem entry_eq_ok :
    interner.entry symbol = .ok entry ↔ interner.table.get? symbol.index = some entry := by
  rw [Interner.entry]
  cases interner.table.get? symbol.index <;> simp

theorem entry_of_extends (h : interner.table.entries.toList <+: later.table.entries.toList)
    (hentry : interner.entry symbol = .ok entry) : later.entry symbol = .ok entry := by
  rw [entry_eq_ok, SymbolTable.get?, ← Array.getElem?_toList] at hentry ⊢
  obtain ⟨more, hmore⟩ := h
  rw [← hmore, List.getElem?_append_left (List.getElem?_eq_some_iff.1 hentry).1, hentry]

namespace Holds

variable {arena : Region} (h : Holds arena memory entry bytes)
include h

theorem length_lt : bytes.length + 1 < 2 ^ 64 := by
  obtain ⟨layout, hsize, -⟩ := h.fits
  exact hsize ▸ layout.size.toNat_lt

theorem inUse : arena.InUse ⟨entry.addr, copyLayout bytes.length⟩ := by
  obtain ⟨layout, hsize, hused⟩ := h.fits
  have hcopy : (copyLayout bytes.length).size = layout.size := by
    rw [copyLayout, ← hsize, UInt64.ofNat_toNat]
  obtain ⟨chunk, hchunk, hstart, hstop⟩ := hused
  refine ⟨chunk, hchunk, hstart, ?_⟩
  rw [Grant.stop] at hstop ⊢
  rwa [hcopy]

theorem cstring_eq {memory' : Memory} (valid : arena.Valid)
    (hagree : AgreeOn {⟨entry.addr, copyLayout bytes.length⟩} memory memory') :
    memory'.cstring entry.addr = bytes.takeWhile (· ≠ 0) := by
  have hlen := h.length_lt
  have hread := hagree.read_eq (Multiset.mem_singleton_self _) (h.inUse.bounded valid)
    (bytes.length + 1) (Nat.le_of_eq (UInt64.toNat_ofNat_of_lt' hlen).symm)
  exact Memory.cstring_eq (Nat.lt_of_succ_lt hlen) (hread.trans h.reads)

end Holds

/-- Interning the bytes before the first zero gives the symbol back only if these are all bytes. -/
theorem intern_takeWhile (h : Refines contract 0 contentHash interner machine strings)
    (hget : strings[symbol.index]? = some bytes) :
    (interner.intern contentHash allocator (bytes.takeWhile (· ≠ 0)) machine).1 = .ok symbol ↔
      0 ∉ bytes := by
  constructor
  · intro hok hzero
    rcases hi : interner.intern contentHash allocator (bytes.takeWhile (· ≠ 0)) machine with
      ⟨result, next, served⟩
    rw [hi] at hok
    obtain rfl : result = .ok symbol := hok
    obtain ⟨strings', hissued, -⟩ := intern_refines h hi
    have hlt : symbol.index < strings.length := (List.getElem?_eq_some_iff.1 hget).1
    cases hissued with
    | present hsame =>
      have hall : bytes.takeWhile (· ≠ 0) = bytes := Option.some.inj (hsame.symm.trans hget)
      have hnone := List.takeWhile_eq_self_iff.1 hall 0 hzero
      simp at hnone
    | appended _ hindex => exact Nat.ne_of_lt hlt hindex
  · intro hnone
    have hall : bytes.takeWhile (· ≠ 0) = bytes := by
      refine List.takeWhile_eq_self_iff.2 fun byte hbyte => ?_
      have hne : byte ≠ 0 := fun he => hnone (he ▸ hbyte)
      simpa using hne
    rw [hall, intern_present h.1 hget allocator]

/-- The bytes of a symbol stay where they are, with a zero byte behind them, until the next clear or
deinit. Read as a C string they end at their first zero. -/
theorem copies_stable (contract : allocator.Contract) (hstart : contract.shared.holds 0 start.store)
    (run : Run contentHash allocator (fun mine machine machine' =>
      contract.shared.holds mine machine'.store ∧ AgreeOn mine machine.memory machine'.memory)
      start events interner machine) :
    ∃ strings, History events strings ∧ ∀ symbol bytes, strings[symbol.index]? = some bytes →
      ∃ entry, interner.entry symbol = .ok entry ∧ entry.length = bytes.length ∧
        ∀ ops later after, RunFrom (fun op : Operation => op.perform contentHash allocator)
            (fun op _ _ => op.forgets = false)
            (fun interner => contract.shared.Aside interner.grants) interner machine ops later
            after →
          later.entry symbol = .ok entry ∧
          later.arena.InUse ⟨entry.addr, copyLayout bytes.length⟩ ∧
          after.memory.read entry.addr (bytes.length + 1) = bytes ++ [0] ∧
          later.resolve symbol after.memory = .ok bytes ∧
          (∀ memory, AgreeOn {⟨entry.addr, copyLayout bytes.length⟩} after.memory memory →
            later.resolveCString symbol memory = .ok (bytes.takeWhile (· ≠ 0))) ∧
          ∀ read, later.resolveCString symbol after.memory = .ok read →
            (((Operation.internCString read).perform contentHash allocator later after).1 =
              .symbol (.ok symbol) ↔ 0 ∉ bytes) := by
  obtain ⟨strings, hhistory, hrefines⟩ := run.refines hstart
  refine ⟨strings, hhistory, fun symbol bytes hget => ?_⟩
  obtain ⟨entry, hentry, hholds⟩ := hrefines.1.exists_entry hget
  refine ⟨entry, entry_eq_ok.2 hentry, hholds.length_eq, fun ops later after hrun => ?_⟩
  obtain ⟨hentries, strings', ⟨more, hmore⟩, hlater⟩ := extends_runFrom hrefines hrun
  have hget' : strings'[symbol.index]? = some bytes := by
    rw [← hmore, List.getElem?_append_left (List.getElem?_eq_some_iff.1 hget).1, hget]
  have hsame : later.entry symbol = .ok entry := entry_of_extends hentries (entry_eq_ok.2 hentry)
  obtain ⟨found, hfound, hcopy⟩ := hlater.1.exists_entry hget'
  obtain rfl : found = entry := Option.some.inj (hfound.symm.trans (entry_eq_ok.1 hsame))
  have hread : ∀ memory, AgreeOn {⟨found.addr, copyLayout bytes.length⟩} after.memory memory →
      later.resolveCString symbol memory = .ok (bytes.takeWhile (· ≠ 0)) := fun memory hagree => by
    rw [resolveCString, hsame]
    exact congrArg Except.ok (hcopy.cstring_eq hlater.1.arena hagree)
  refine ⟨hsame, hcopy.inUse, hcopy.reads, hlater.1.resolve_eq_ok hget', hread, ?_⟩
  intro read hok
  obtain rfl := Except.ok.inj (hok.symm.trans (hread _ (.refl _ _)))
  have hagain : (bytes.takeWhile (· ≠ 0)).takeWhile (· ≠ 0) = bytes.takeWhile (· ≠ 0) :=
    List.takeWhile_idem
  rw [← intern_takeWhile hlater hget', Operation.perform, Operation.perform.answered, hagain,
    Answer.symbol.injEq]

theorem copies_stable_inner_zero : ∃ (entry : Entry) (later : Interner) (after : Machine Platform),
    later.table.capacity = 2 ∧ later.entry ⟨0⟩ = .ok entry ∧
      after.memory.read entry.addr 4 = [97, 0, 98, 0] ∧
      later.resolve ⟨0⟩ after.memory = .ok [97, 0, 98] ∧
      later.resolveCString ⟨0⟩ after.memory = .ok [97] := by
  have hstart : Platform.plainWindowContract.shared.holds 0 (⟨.ofCap 65536, {}⟩ : Platform) :=
    ⟨0, by decide, by decide, by simp⟩
  have hcreated : Run (fun _ => 7) Platform.plainWindow (fun mine machine machine' =>
      Platform.plainWindowContract.shared.holds mine machine'.store ∧
        AgreeOn mine machine.memory machine'.memory) { store := ⟨.ofCap 65536, {}⟩ } []
      (.create 0x10000 .threeQuarters 1 none) { store := ⟨.ofCap 65536, {}⟩ } := .create _ _ _ _
  have hissued := hcreated.perform (.intern [97, 0, 98])
    (Prod.ext rfl rfl : _ = (Answer.symbol (.ok ⟨0⟩), _, _))
  obtain ⟨strings, hhistory, hcopies⟩ :=
    copies_stable Platform.plainWindowContract hstart hissued
  have hget : strings[(⟨0⟩ : Symbol).index]? = some [97, 0, 98] := by
    cases hhistory with
    | cons hnil hanswers =>
      cases hnil
      cases hanswers with
      | intern hissued =>
        cases hissued with
        | present hget => cases hget
        | appended => rfl
  obtain ⟨entry, -, -, hlater⟩ := hcopies ⟨0⟩ _ hget
  obtain ⟨hentry, -, hread, hresolve, hcstring, -⟩ := hlater _ _ _
    (.perform (.intern [99]) .nothing rfl (Prod.ext rfl rfl : _ = (Answer.symbol (.ok ⟨1⟩), _, _)))
  exact ⟨entry, _, _, rfl, hentry, hread, hresolve, hcstring _ (.refl _ _)⟩

end Interner

end ArenaMemory
