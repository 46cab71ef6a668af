import ArenaMemory.World.Basic
import ArenaMemory.Proofs.Allocator.Window
import ArenaMemory.Proofs.Interner.Run

namespace ArenaMemory

variable {σ : Type}

namespace Interner

def drop (allocator : Allocator σ) (interner : Interner) (home : Option Word)
    (machine : Machine σ) :
    Machine σ :=
  allocator.free home Object.internerLayout (interner.deinit allocator machine).2

theorem release_interner {name : String} {origin : Origin BaseName} {interner : Interner}
    {home : Option Word} (machine : Machine Objects) :
    World.release ⟨name, origin, .interner interner home⟩ machine =
      interner.drop (World.allocator origin) home machine := by
  cases home <;> rfl

variable {contentHash : ContentHash} {allocator : Allocator σ} {contract : allocator.Contract}
  {start machine machine' after : Machine σ} {interner interner' later : Interner}
  {bytes : List UInt8} {events : List (Operation × Answer)} {failure : InternFailure}
  {home : Option Word} {rest : Multiset Grant} {strings : List (List UInt8)}

theorem refines_runFrom_count {ops : List (Operation × Answer)}
    (h : Refines contract 0 contentHash interner machine strings)
    (run : RunFrom (fun op : Operation => op.perform contentHash allocator)
      (fun op interner machine =>
        (op.perform contentHash allocator interner machine).2.1.count = interner.count)
      (fun interner => contract.Aside interner.grants) interner machine ops later after) :
    ∃ strings', strings'.length = strings.length ∧
      Refines contract 0 contentHash later after strings' := by
  refine run.preserves (fun later after => ∃ strings', strings'.length = strings.length ∧
    Refines contract 0 contentHash later after strings') ⟨strings, rfl, h⟩ ?_ ?_
  · rintro op before between answer after later ⟨strings', hlength, hrefines⟩ hcount hp
    obtain ⟨strings'', -, hrefines'⟩ := perform_refines hrefines hp
    rw [hp] at hcount
    refine ⟨strings'', ?_, hrefines'⟩
    rw [← hrefines'.1.count_eq, hcount, hrefines.1.count_eq, hlength]
  · rintro after between later ⟨strings', hlength, hrefines⟩ ho
    exact ⟨strings', hlength, hrefines.others ho⟩

theorem index_of_issued {symbol : Symbol} {next : Interner} {served : Machine σ}
    (h : Refines contract rest contentHash interner machine strings)
    (hnew : interner.get? contentHash bytes machine.memory = none)
    (hi : interner.intern contentHash allocator bytes machine = (.ok symbol, next, served)) :
    symbol.index = strings.length := by
  obtain ⟨strings', hissued, -⟩ := intern_refines h hi
  have hmem := h.1.lookup_eq_none.1 hnew
  cases hissued with
  | present hget => exact absurd (List.mem_of_getElem? hget) hmem
  | appended _ hindex => exact hindex

theorem drop_holds {ledger : allocator.Ledger}
    (h : ledger.holds (interner.grants + (granted home Object.internerLayout + rest))
      machine.store) :
    ledger.holds rest (interner.drop allocator home machine).store :=
  ledger.free (deinit_holds h)

theorem grew_of_failed (h : Refines contract rest contentHash interner machine strings)
    (hi : interner.intern contentHash allocator bytes machine =
      (.error failure, interner', machine')) :
    bytes ∉ strings ∧ Grew contract rest interner machine interner' machine' := by
  cases interned h.1 h.2 hi with
  | failed hnew hgrew => exact ⟨hnew, hgrew⟩

/-- A failed intern leaves the interner as it was, whichever request was refused. Only the buffers
of the table and of the map may have grown. -/
theorem failed_intern (contract : allocator.Contract) (hstart : contract.shared.holds 0 start.store)
    (run : Run contentHash allocator (fun mine machine machine' =>
      contract.shared.holds mine machine'.store ∧ AgreeOn mine machine.memory machine'.memory)
      start events interner machine)
    (hi : interner.intern contentHash allocator bytes machine =
      (.error failure, interner', machine')) :
    interner'.count = interner.count ∧
      (∀ symbol, interner'.entry symbol = interner.entry symbol ∧
        interner'.resolve symbol machine'.memory = interner.resolve symbol machine.memory) ∧
      (∀ other, interner'.get? contentHash other machine'.memory =
        interner.get? contentHash other machine.memory) ∧
      interner'.get? contentHash bytes machine'.memory = none ∧
      interner'.arena = interner.arena ∧
      interner'.table = { interner.table with buffer := interner'.table.buffer } ∧
      interner'.map =
        { interner.map with buffer := interner'.map.buffer, slots := interner'.map.slots } ∧
      interner.table.capacity ≤ interner'.table.capacity ∧
      interner.map.capacity ≤ interner'.map.capacity ∧
      (∀ ops later after fresh symbol next served,
        RunFrom (fun op : Operation => op.perform contentHash allocator)
          (fun op interner machine =>
            (op.perform contentHash allocator interner machine).2.1.count = interner.count)
          (fun interner => contract.shared.Aside interner.grants) interner' machine' ops later
          after →
        later.get? contentHash fresh after.memory = none →
        later.intern contentHash allocator fresh after = (.ok symbol, next, served) →
        symbol.index = interner.count) ∧
      ∀ home rest,
        contract.holds (interner.grants + (granted home Object.internerLayout + rest))
          machine.store →
        contract.holds (interner'.grants + (granted home Object.internerLayout + rest))
          machine'.store ∧
        contract.holds (granted home Object.internerLayout + rest)
          (interner'.deinit allocator machine').2.store ∧
        contract.holds rest (interner'.drop allocator home machine').store := by
  obtain ⟨strings, -, hrefines⟩ := run.refines hstart
  have rep := hrefines.1
  obtain ⟨hnew, hgrew⟩ := grew_of_failed hrefines hi
  have hgrown := hgrew.grown
  have rep' := hgrew.represents rep
  refine ⟨hgrown.count_eq, fun symbol => ⟨?_, ?_⟩, fun other => ?_, rep'.lookup_eq_none.2 hnew,
    hgrown.arena_eq, hgrown.table_eq, hgrown.map_eq, hgrown.table_le, hgrown.map_le, ?_, ?_⟩
  · rw [entry, entry, hgrown.get?_eq, hgrown.count_eq]
  · cases hget : strings[symbol.index]? with
    | none =>
      have hle := List.getElem?_eq_none_iff.1 hget
      rw [rep'.resolve_eq_error hle, rep.resolve_eq_error hle]
    | some bytes => rw [rep'.resolve_eq_ok hget, rep.resolve_eq_ok hget]
  · apply Option.ext
    intro symbol
    exact rep'.lookup_eq_some.trans rep.lookup_eq_some.symm
  · intro ops later after fresh symbol next served hrun hfresh hissued
    obtain ⟨strings', hlength, hlater⟩ := refines_runFrom_count ⟨rep', hgrew.holds⟩ hrun
    rw [index_of_issued hlater hfresh hissued, hlength, rep.count_eq]
  · intro home rest hholds
    have hafter := (grew_of_failed ⟨rep, hholds⟩ hi).2.holds
    exact ⟨hafter, deinit_holds hafter, drop_holds hafter⟩

/-- An arena that may obtain nothing: the table and the map have grown when the copy fails. -/
theorem failed_intern_no_arena : ∃ (interner' : Interner) (machine' : Machine Platform),
    ((Interner.create 0x10000 .threeQuarters 4 (some 0)).intern (fun _ => 7) Platform.plainWindow
      [97] { store := ⟨.ofCap 65536, {}⟩ }).1 = .error (.arenaExhausted 1) ∧
    interner'.table.capacity = 4 ∧ interner'.map.capacity = 16 ∧ interner'.count = 0 ∧
    interner'.arena = (Interner.create 0x10000 .threeQuarters 4 (some 0)).arena ∧
    interner'.get? (fun _ => 7) [97] machine'.memory = none ∧
    Platform.plainWindowContract.holds 0
      (interner'.deinit Platform.plainWindow machine').2.store := by
  have hstart : Platform.plainWindowContract.shared.holds 0 (⟨.ofCap 65536, {}⟩ : Platform) :=
    ⟨0, by decide, by decide, by simp⟩
  have hout : Platform.plainWindowContract.holds 0 (⟨.ofCap 65536, {}⟩ : Platform) :=
    ⟨by decide, by decide, by simp⟩
  have hcreated : Run (fun _ => 7) Platform.plainWindow (fun mine machine machine' =>
      Platform.plainWindowContract.shared.holds mine machine'.store ∧
        AgreeOn mine machine.memory machine'.memory) { store := ⟨.ofCap 65536, {}⟩ } []
      (.create 0x10000 .threeQuarters 4 (some 0)) { store := ⟨.ofCap 65536, {}⟩ } := .create _ _ _ _
  have hfailed : (Interner.create 0x10000 .threeQuarters 4 (some 0)).intern (fun _ => 7)
      Platform.plainWindow [97] { store := ⟨.ofCap 65536, {}⟩ } =
        (.error (.arenaExhausted 1), _, _) :=
    Prod.ext rfl rfl
  obtain ⟨hcount, -, -, hnone, harena, -, -, -, -, -, hgone⟩ :=
    failed_intern Platform.plainWindowContract hstart hcreated hfailed
  obtain ⟨-, hdeinit, -⟩ := hgone none 0 hout
  exact ⟨_, _, rfl, rfl, rfl, hcount, harena, hnone, hdeinit⟩

end Interner

end ArenaMemory
