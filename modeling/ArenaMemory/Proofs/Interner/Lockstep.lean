import ArenaMemory.Proofs.Interner.Run
import ArenaMemory.Proofs.Region.Alike

namespace ArenaMemory

variable {σ : Type} {same : σ → σ → Prop} {a b : Allocator σ} {machine machine' : Machine σ}

section Buffers

variable {element : Layout}

theorem Buffer.release_alike (h : a.Alike same b) (buffer : Buffer) (element : Layout)
    (hm : machine.Alike same machine') :
    (buffer.release a element machine).Alike same (buffer.release b element machine') := by
  unfold Buffer.release
  by_cases hzero : buffer.capacity = 0
  · rw [if_pos hzero, if_pos hzero]
    exact hm
  · rw [if_neg hzero, if_neg hzero]
    cases element.array buffer.capacity with
    | none => exact hm
    | some layout => exact h.release buffer.addr layout hm

theorem Buffer.resize?_alike (h : a.Alike same b) (buffer : Buffer) (he : 0 < element.size.toNat)
    {capacity : Nat} (hc : buffer.capacity ≠ 0 → 0 < capacity) (hm : machine.Alike same machine') :
    Paired (Machine.Alike same) (buffer.resize? a element capacity machine)
      (buffer.resize? b element capacity machine') := by
  unfold Buffer.resize?
  cases hnew : element.array capacity with
  | none => exact .intro none hm
  | some new =>
    dsimp only
    by_cases hzero : buffer.capacity = 0
    · have hserved := h.alloc new hm
      rw [if_pos hzero, if_pos hzero]
      obtain ⟨result, _, _, ha, hb, hm⟩ := hserved.exists_eq
      rw [ha, hb]
      exact .intro _ hm
    · rw [if_neg hzero, if_neg hzero]
      cases hold : element.array buffer.capacity with
      | none => exact .intro none hm
      | some old =>
        have hserved := h.realloc buffer.addr (Buffer.array_pos he (Nat.pos_of_ne_zero hzero) hold)
          (Buffer.array_pos he (hc hzero) hnew) hm
        dsimp only
        obtain ⟨result, _, _, ha, hb, hm⟩ := hserved.exists_eq
        rw [ha, hb]
        exact .intro _ hm

theorem Allocator.zallocArray_alike (h : a.Alike same b) (he : 0 < element.size.toNat) {count : Nat}
    (hc : 0 < count) (hm : machine.Alike same machine') :
    Paired (Machine.Alike same) (a.zallocArray element count machine)
      (b.zallocArray element count machine') := by
  unfold zallocArray
  cases hlayout : element.array count with
  | none => exact .intro none hm
  | some layout => exact h.zalloc (Buffer.array_pos he hc hlayout) hm

end Buffers

theorem SymbolTable.reserveOne_alike (h : a.Alike same b) (table : SymbolTable)
    (hm : machine.Alike same machine') :
    Paired (Paired (Machine.Alike same)) (table.reserveOne a machine)
      (table.reserveOne b machine') := by
  unfold reserveOne
  dsimp only
  by_cases hroom : table.count < table.capacity
  · rw [if_pos hroom, if_pos hroom]
    exact .intro _ (.intro table hm)
  · rw [if_neg hroom, if_neg hroom]
    have hpos : table.capacity ≠ 0 →
        0 < if table.capacity = 0 then table.initialCapacity else 2 * table.capacity := by
      intro hne
      rw [if_neg hne]
      exact Nat.mul_pos Nat.two_pos (Nat.pos_of_ne_zero hne)
    have hlayout : 0 < Entry.layout.size.toNat := by decide
    have hresized := table.buffer.resize?_alike h hlayout hpos hm
    obtain ⟨result, _, _, ha, hb, hm⟩ := hresized.exists_eq
    rw [ha, hb]
    cases result with
    | none => exact .intro _ (.intro table hm)
    | some buffer =>
      refine .intro _ (.intro _ ?_)
      split
      · exact hm
      · exact hm.emit _ _

namespace SymbolMap

theorem rehash_alike (h : a.Alike same b) (map : SymbolMap) {capacity : Nat} (hc : 0 < capacity)
    (hm : machine.Alike same machine') :
    Paired (Paired (Machine.Alike same)) (map.rehash a capacity machine)
      (map.rehash b capacity machine') := by
  unfold rehash
  have hlayout : 0 < Slot.layout.size.toNat := by decide
  have hserved := Allocator.zallocArray_alike h hlayout hc hm
  obtain ⟨result, _, _, ha, hb, hm⟩ := hserved.exists_eq
  rw [ha, hb]
  cases result with
  | none => exact .intro _ (.intro map hm)
  | some addr => exact .intro _ (.intro _ (map.buffer.release_alike h Slot.layout (hm.emit _ _)))

theorem reserve_alike (h : a.Alike same b) (map : SymbolMap) (additional : Nat)
    (hm : machine.Alike same machine') :
    Paired (Paired (Machine.Alike same)) (map.reserve a additional machine)
      (map.reserve b additional machine') := by
  unfold reserve
  dsimp only
  by_cases hroom : map.count + additional ≤ map.loadFactor.threshold map.capacity
  · rw [if_pos hroom, if_pos hroom]
    exact .intro _ (.intro map hm)
  · rw [if_neg hroom, if_neg hroom]
    cases hplan : capacityFor? map.loadFactor map.capacity (map.count + additional) with
    | none => exact .intro _ (.intro map hm)
    | some capacity => exact map.rehash_alike h (capacityFor?_eq_some hplan).2.1 hm

end SymbolMap

namespace Interner

variable (h : a.Alike same b) (interner : Interner)
include h

theorem deinit_alike (hm : machine.Alike same machine') :
    Paired (Machine.Alike same) (interner.deinit a machine) (interner.deinit b machine') := by
  have harena := interner.arena.deinit_alike h hm
  unfold deinit
  obtain ⟨arena, _, _, ha, hb, hm⟩ := harena.exists_eq
  rw [ha, hb]
  have hmap := interner.map.buffer.release_alike h Slot.layout hm
  exact .intro _ (interner.table.buffer.release_alike h Entry.layout hmap)

theorem clear_alike (hm : machine.Alike same machine') :
    Paired (Machine.Alike same) (interner.clear a machine) (interner.clear b machine') := by
  have harena := interner.arena.reset_alike h hm
  unfold clear
  obtain ⟨arena, _, _, ha, hb, hm⟩ := harena.exists_eq
  rw [ha, hb]
  exact .intro _ hm

theorem presize_alike (capacity : Nat) (hm : machine.Alike same machine') :
    Paired (Machine.Alike same) (interner.presize a capacity machine)
      (interner.presize b capacity machine') := by
  unfold presize
  by_cases hzero : capacity = 0
  · rw [if_pos hzero, if_pos hzero]
    exact .intro _ hm
  · rw [if_neg hzero, if_neg hzero]
    have htable := interner.table.reserveOne_alike h hm
    obtain ⟨result, _, _, ha, hb, ⟨table, hm⟩⟩ := htable.exists_eq
    rw [ha, hb]
    cases result with
    | error failure =>
      exact .intro _ (deinit_alike h { interner with table } hm).rest
    | ok =>
      have hmap := interner.map.reserve_alike h capacity hm
      dsimp only
      obtain ⟨result, _, _, ha, hb, ⟨map, hm⟩⟩ := hmap.exists_eq
      rw [ha, hb]
      cases result with
      | error failure => exact .intro _ (deinit_alike h { interner with table, map } hm).rest
      | ok => exact .intro _ hm

theorem insert_alike (hash : UInt64) (bytes : List UInt8) (hm : machine.Alike same machine') :
    Paired (Paired (Machine.Alike same)) (interner.insert a hash bytes machine)
      (interner.insert b hash bytes machine') := by
  unfold insert
  dsimp only
  by_cases hfull : maxSymbols ≤ interner.table.count
  · rw [if_pos hfull, if_pos hfull]
    exact .intro _ (.intro interner hm)
  · rw [if_neg hfull, if_neg hfull]
    have htable := interner.table.reserveOne_alike h hm
    obtain ⟨result, _, _, ha, hb, ⟨table, hm⟩⟩ := htable.exists_eq
    rw [ha, hb]
    cases result with
    | error failure => exact .intro _ (.intro _ hm)
    | ok =>
      have hmap := interner.map.reserve_alike h 1 hm
      dsimp only
      obtain ⟨result, _, _, ha, hb, ⟨map, hm⟩⟩ := hmap.exists_eq
      rw [ha, hb]
      cases result with
      | error failure => exact .intro _ (.intro _ hm)
      | ok =>
        have hcopy := interner.arena.dup_alike h bytes hm
        dsimp only
        obtain ⟨result, _, _, ha, hb, ⟨arena, hm⟩⟩ := hcopy.exists_eq
        rw [ha, hb]
        cases result with
        | none => exact .intro _ (.intro _ hm)
        | some addr => exact .intro _ (.intro _ hm)

theorem intern_alike (contentHash : ContentHash) (bytes : List UInt8)
    (hm : machine.Alike same machine') :
    Paired (Paired (Machine.Alike same)) (interner.intern contentHash a bytes machine)
      (interner.intern contentHash b bytes machine') := by
  unfold intern
  dsimp only
  rw [← hm.memory_eq]
  cases interner.lookup (contentHash bytes) bytes machine.memory with
  | some symbol => exact .intro _ (.intro interner hm)
  | none =>
    have hinserted := insert_alike h interner (contentHash bytes) bytes hm
    dsimp only
    obtain ⟨result, _, _, ha, hb, ⟨after, hm⟩⟩ := hinserted.exists_eq
    rw [ha, hb]
    cases result with
    | ok symbol => exact .intro _ (.intro after hm)
    | error failure => exact .intro _ (.intro after (hm.emit _ _))

theorem internMany_alike (contentHash : ContentHash) (items : List (List UInt8))
    (hm : machine.Alike same machine') :
    Paired (Paired (Machine.Alike same)) (interner.internMany contentHash a items machine)
      (interner.internMany contentHash b items machine') := by
  induction items generalizing interner machine machine' with
  | nil => exact .intro _ (.intro interner hm)
  | cons bytes items ih =>
    have hfirst := intern_alike h interner contentHash bytes hm
    unfold internMany
    obtain ⟨result, _, _, ha, hb, ⟨next, hm⟩⟩ := hfirst.exists_eq
    rw [ha, hb]
    cases result with
    | error failure => exact .intro _ (.intro next hm)
    | ok symbol =>
      have hlater := ih next hm
      dsimp only
      obtain ⟨result, _, _, ha, hb, ⟨last, hm⟩⟩ := hlater.exists_eq
      rw [ha, hb]
      cases result with
      | error failure => exact .intro _ (.intro last hm)
      | ok symbols => exact .intro _ (.intro last hm)

omit h in
theorem answered_alike {out out' : Except InternFailure Symbol × Interner × Machine σ}
    (hinterned : Paired (Paired (Machine.Alike same)) out out') :
    Paired (Paired (Machine.Alike same)) (Operation.perform.answered out)
      (Operation.perform.answered out') := by
  obtain ⟨result, ⟨after, hm⟩⟩ := hinterned
  exact .intro _ (.intro after hm)

theorem perform_alike (op : Operation) (contentHash : ContentHash)
    (hm : machine.Alike same machine') :
    Paired (Paired (Machine.Alike same)) (op.perform contentHash a interner machine)
      (op.perform contentHash b interner machine') := by
  cases op with
  | intern bytes | internText text | internCString bytes =>
    exact answered_alike (intern_alike h interner contentHash _ hm)
  | internMany items =>
    have hinterned := internMany_alike h interner contentHash items hm
    unfold Operation.perform
    dsimp only
    obtain ⟨result, _, _, ha, hb, ⟨after, hm⟩⟩ := hinterned.exists_eq
    rw [ha, hb]
    exact .intro _ (.intro after hm)
  | get bytes | contains bytes | resolve symbol | list =>
    unfold Operation.perform
    dsimp only
    rw [hm.memory_eq]
    exact .intro _ (.intro interner hm)
  | count => exact .intro _ (.intro interner hm)
  | clear => exact .intro _ (clear_alike h interner hm)
  | deinit => exact .intro _ (deinit_alike h interner hm)

end Interner

end ArenaMemory
