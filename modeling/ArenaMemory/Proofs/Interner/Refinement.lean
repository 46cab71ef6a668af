import ArenaMemory.Proofs.Allocator.Window
import ArenaMemory.Proofs.Interner.Run

namespace ArenaMemory

variable {σ : Type}

namespace Interner

variable {contentHash : ContentHash} {allocator : Allocator σ} {start machine : Machine σ}
  {interner : Interner} {events : List (Operation × Answer)}

/-- An interner refines an append-only list of distinct byte strings, whatever the hash, the load
factor, the initial capacity and the allocator. -/
theorem refines_list (contract : allocator.Contract) (hstart : contract.shared.holds 0 start.store)
    (run : Run contentHash allocator (fun mine machine machine' =>
      contract.shared.holds mine machine'.store ∧ AgreeOn mine machine.memory machine'.memory)
      start events interner machine) :
    ∃ strings, History events strings ∧ strings.Nodup ∧ strings.length ≤ maxSymbols ∧
      interner.count = strings.length ∧
      (interner.toList machine.memory =
        strings.zipIdx.map fun (bytes, i) => (⟨UInt32.ofNat i⟩, bytes)) ∧
      (∀ bytes symbol, interner.get? contentHash bytes machine.memory = some symbol ↔
        strings[symbol.index]? = some bytes) ∧
      (∀ bytes, interner.get? contentHash bytes machine.memory = none ↔ bytes ∉ strings) ∧
      (∀ symbol bytes, interner.resolve symbol machine.memory = .ok bytes ↔
        strings[symbol.index]? = some bytes) ∧
      (∀ symbol, (∃ violation, interner.resolve symbol machine.memory = .error violation) ↔
        strings.length ≤ symbol.index) ∧
      (∀ symbol bytes, strings[symbol.index]? = some bytes → ∀ other : Allocator σ,
        interner.intern contentHash other bytes machine = (.ok symbol, interner, machine)) ∧
      ∀ (op : Operation) answer interner' machine',
        op.perform contentHash allocator interner machine = (answer, interner', machine') →
        ∃ strings', Answers strings op answer strings' ∧
          Represents contentHash interner' machine'.memory strings' := by
  obtain ⟨strings, hhistory, hrefines⟩ := run.refines hstart
  have rep := hrefines.1
  refine ⟨strings, hhistory, rep.nodup, rep.length_le, rep.count_eq, rep.toList_eq,
    fun _ _ => rep.lookup_eq_some, fun _ => rep.lookup_eq_none,
    fun symbol bytes => ?_, fun symbol => ?_,
    fun _ _ hget other => intern_present rep hget other, fun op answer interner' machine' hp => ?_⟩
  · refine ⟨fun hok => ?_, rep.resolve_eq_ok⟩
    obtain hlt | hge := Nat.lt_or_ge symbol.index strings.length
    · rw [rep.resolve_eq_ok (List.getElem?_eq_getElem hlt)] at hok
      rw [List.getElem?_eq_getElem hlt, Except.ok.inj hok]
    · rw [rep.resolve_eq_error hge] at hok
      cases hok
  · refine ⟨fun ⟨violation, herror⟩ => ?_, fun hle => ⟨_, rep.resolve_eq_error hle⟩⟩
    by_contra hlt
    rw [rep.resolve_eq_ok (List.getElem?_eq_getElem (Nat.lt_of_not_le hlt))] at herror
    cases herror
  · obtain ⟨strings', hanswers, hrefines'⟩ := perform_refines hrefines hp
    exact ⟨strings', hanswers, hrefines'.1⟩

theorem refines_list_collision : ∃ (interner : Interner) (machine : Machine Platform) (strings : _),
    History [(.intern [98, 99], .symbol (.ok ⟨1⟩)), (.intern [97], .symbol (.ok ⟨0⟩))] strings ∧
      interner.count = 2 ∧ interner.count = strings.length ∧
      (∀ bytes symbol, interner.get? (fun _ => 7) bytes machine.memory = some symbol ↔
        strings[symbol.index]? = some bytes) := by
  have hstart : Platform.plainWindowContract.shared.holds 0 (⟨.ofCap 65536, {}⟩ : Platform) :=
    ⟨0, by decide, by decide, by simp⟩
  have hcreated : Run (fun _ => 7) Platform.plainWindow (fun mine machine machine' =>
      Platform.plainWindowContract.shared.holds mine machine'.store ∧
        AgreeOn mine machine.memory machine'.memory) { store := ⟨.ofCap 65536, {}⟩ } []
      (.create 0x10000 .threeQuarters 4 none) { store := ⟨.ofCap 65536, {}⟩ } := .create _ _ _ _
  have hfirst :=
    hcreated.perform (.intern [97]) (Prod.ext rfl rfl : _ = (Answer.symbol (.ok ⟨0⟩), _, _))
  have hsecond :=
    hfirst.perform (.intern [98, 99]) (Prod.ext rfl rfl : _ = (Answer.symbol (.ok ⟨1⟩), _, _))
  obtain ⟨strings, hhistory, -, -, hcount, -, hget, -⟩ :=
    refines_list Platform.plainWindowContract hstart hsecond
  exact ⟨_, _, strings, hhistory, rfl, hcount, hget⟩

end Interner

end ArenaMemory
