import ArenaMemory.Interner.SymbolTable
import ArenaMemory.Proofs.Allocator.Contract

namespace ArenaMemory

variable {σ : Type}

namespace Buffer

def grants (element : Layout) (buffer : Buffer) : Multiset Grant :=
  if buffer.capacity = 0 then 0
  else
    match element.array buffer.capacity with
    | none => 0
    | some layout => {⟨buffer.addr, layout⟩}

variable {allocator : Allocator σ} {element layout : Layout} {buffer : Buffer}
  {count capacity : Nat} {result : Option Buffer} {machine machine' : Machine σ}
  {rest kept : Multiset Grant} {ledger : allocator.Ledger}

theorem grants_of_array {addr : Word} (hc : 0 < capacity)
    (h : element.array capacity = some layout) :
    grants element ⟨addr, capacity⟩ = {⟨addr, layout⟩} := by
  simp only [grants, h, if_neg (Nat.ne_of_gt hc)]

theorem array_pos (he : 0 < element.size.toNat) (hc : 0 < count)
    (h : element.array count = some layout) :
    0 < layout.size.toNat := by
  obtain ⟨size, hsize, rfl⟩ := Option.map_eq_some_iff.1 h
  rw [Word.ofNat?_eq_some.1 hsize]
  exact Nat.mul_pos he hc

theorem release_holds (ledger : allocator.Ledger)
    (h : ledger.holds (buffer.grants element + rest) machine.store) :
    ledger.holds rest (buffer.release allocator element machine).store := by
  rw [release]
  rw [grants] at h
  split
  next hc => rwa [if_pos hc, zero_add] at h
  next hc =>
    rw [if_neg hc] at h
    cases ha : element.array buffer.capacity with
    | none =>
      simp only [ha, zero_add] at h
      exact h
    | some layout =>
      simp only [ha] at h
      exact ledger.release h

theorem release_kept (keeps : ledger.Keeps kept)
    (h : ledger.holds (buffer.grants element + rest) machine.store) :
    AgreeOn kept machine.memory (buffer.release allocator element machine).memory := by
  rw [release]
  rw [grants] at h
  split
  · exact .refl _ _
  next hc =>
    rw [if_neg hc] at h
    cases ha : element.array buffer.capacity with
    | none => exact .refl _ _
    | some layout =>
      simp only [ha] at h
      exact keeps.release h

inductive Resized (allocator : Allocator σ) (element : Layout) (buffer : Buffer) (capacity : Nat)
    (machine : Machine σ) : Option Buffer × Machine σ → Prop where
  | declined : Resized allocator element buffer capacity machine (none, machine)
  | requested {new result machine'} : buffer.capacity = 0 → element.array capacity = some new →
      allocator.alloc new machine = (result, machine') →
      Resized allocator element buffer capacity machine (result.map (⟨·, capacity⟩), machine')
  | moved {new old result machine'} : buffer.capacity ≠ 0 → element.array capacity = some new →
      element.array buffer.capacity = some old →
      allocator.realloc (some buffer.addr) old new machine = (result, machine') →
      Resized allocator element buffer capacity machine (result.map (⟨·, capacity⟩), machine')

theorem resized (allocator : Allocator σ) (element : Layout) (buffer : Buffer) (capacity : Nat)
    (machine : Machine σ) : Resized allocator element buffer capacity machine
      (buffer.resize? allocator element capacity machine) := by
  rw [resize?]
  cases hnew : element.array capacity with
  | none => exact .declined
  | some new =>
    dsimp only
    split
    next hc => exact .requested hc hnew rfl
    next hc =>
      cases hold : element.array buffer.capacity with
      | none => exact .declined
      | some old => exact .moved hc hnew hold rfl

theorem resize?_holds (ledger : allocator.Ledger) (he : 0 < element.size.toNat) (hc : 0 < capacity)
    (h : ledger.holds (buffer.grants element + rest) machine.store)
    (hr : buffer.resize? allocator element capacity machine = (result, machine')) :
    ledger.holds ((result.getD buffer).grants element + rest) machine'.store := by
  have hresized := hr ▸ resized allocator element buffer capacity machine
  cases hresized with
  | declined => exact h
  | @requested new found _ hzero hnew ha =>
    rw [grants, if_pos hzero, zero_add] at h
    have hout := ledger.alloc h ha
    cases found with
    | none => rwa [Option.map_none, Option.getD_none, grants, if_pos hzero]
    | some addr => rwa [Option.map_some, Option.getD_some, grants_of_array hc hnew]
  | @moved new old found _ hpos hnew hold ha =>
    simp only [grants, if_neg hpos, hold] at h
    have hout := ledger.realloc (array_pos he hc hnew) h ha
    cases found with
    | none =>
      simp only [Option.map_none, Option.getD_none, grants, if_neg hpos, hold]
      exact hout
    | some addr =>
      rw [Option.map_some, Option.getD_some, grants_of_array hc hnew]
      exact hout

theorem resize?_kept (keeps : ledger.Keeps kept) (he : 0 < element.size.toNat)
    (hc : 0 < capacity) (h : ledger.holds (buffer.grants element + rest) machine.store)
    (hr : buffer.resize? allocator element capacity machine = (result, machine')) :
    AgreeOn kept machine.memory machine'.memory := by
  have hresized := hr ▸ resized allocator element buffer capacity machine
  cases hresized with
  | declined => exact .refl _ _
  | requested hzero hnew ha => exact keeps.alloc h ha
  | moved hpos hnew hold ha =>
    simp only [grants, if_neg hpos, hold] at h
    exact keeps.realloc (array_pos he hc hnew) h ha

theorem resize?_capacity {resized : Buffer}
    (hr : buffer.resize? allocator element capacity machine = (some resized, machine')) :
    resized.capacity = capacity := by
  rw [resize?] at hr
  cases hnew : element.array capacity with
  | none => simp [hnew] at hr
  | some new =>
    simp only [hnew] at hr
    obtain ⟨addr, -, rfl⟩ := Option.map_eq_some_iff.1 (Prod.mk.inj hr).1
    rfl

theorem isSome_array {resized : Buffer}
    (hr : buffer.resize? allocator element capacity machine = (some resized, machine')) :
    (element.array capacity).isSome := by
  rw [resize?] at hr
  cases hnew : element.array capacity with
  | none => simp [hnew] at hr
  | some new => rfl

end Buffer

namespace SymbolTable

def grants (table : SymbolTable) : Multiset Grant := table.buffer.grants Entry.layout

/-- What holds of a table: its first array will have room, and the one it has holds the entries. -/
structure Valid (table : SymbolTable) : Prop where
  initial_pos : 0 < table.initialCapacity
  count_le : table.count ≤ table.capacity

structure Reserved (table : SymbolTable) (result : Except InternFailure Unit)
    (table' : SymbolTable) :
    Prop where
  same : table' = { table with buffer := table'.buffer }
  capacity_le : table.capacity ≤ table'.capacity
  room : result = .ok () → table.count < table'.capacity

variable {allocator : Allocator σ} {table table' : SymbolTable} {machine machine' : Machine σ}
  {rest kept : Multiset Grant} {ledger : allocator.Ledger} {result : Except InternFailure Unit}

def nextCapacity (table : SymbolTable) : Nat :=
  if table.capacity = 0 then table.initialCapacity else 2 * table.capacity

inductive Reservation (allocator : Allocator σ) (table : SymbolTable) (machine : Machine σ) :
    Except InternFailure Unit × SymbolTable × Machine σ → Prop where
  | roomy : table.count < table.capacity →
      Reservation allocator table machine (.ok (), table, machine)
  | refused {machine' : Machine σ} : table.capacity ≤ table.count → 0 < table.nextCapacity →
      table.buffer.resize? allocator Entry.layout table.nextCapacity machine = (none, machine') →
      Reservation allocator table machine (.error (.tableExhausted table.capacity), table, machine')
  | grown {buffer machine'} (trace : List Event) : table.capacity < table.nextCapacity →
      table.count < table.nextCapacity →
      table.buffer.resize? allocator Entry.layout table.nextCapacity machine =
        (some buffer, machine') →
      Reservation allocator table machine
        (.ok (), { table with buffer }, { machine' with trace })

theorem reservation (allocator : Allocator σ) (machine : Machine σ) (valid : table.Valid) :
    Reservation allocator table machine (table.reserveOne allocator machine) := by
  have hinitial := valid.initial_pos
  have hcount := valid.count_le
  have hlt : table.capacity < table.nextCapacity := by
    rw [nextCapacity]
    split <;> omega
  rw [reserveOne]
  dsimp only
  split
  next hroom => exact .roomy hroom
  next hfull =>
    rw [← nextCapacity]
    rcases hr : table.buffer.resize? allocator Entry.layout table.nextCapacity machine with
      ⟨_ | buffer, machine'⟩
    · exact .refused (Nat.le_of_not_lt hfull) (Nat.zero_lt_of_lt hlt) hr
    · dsimp only
      split
      · exact .grown _ hlt (by omega) hr
      · exact .grown _ hlt (by omega) hr

theorem reserveOne_reserved (valid : table.Valid)
    (hr : table.reserveOne allocator machine = (result, table', machine')) :
    Reserved table result table' := by
  have hreservation := hr ▸ reservation allocator machine valid
  cases hreservation with
  | roomy hroom => exact ⟨rfl, Nat.le_refl _, fun _ => hroom⟩
  | refused => exact ⟨rfl, Nat.le_refl _, by simp⟩
  | grown trace hlt hcount hb =>
    have hcapacity := Buffer.resize?_capacity hb
    refine ⟨rfl, ?_, fun _ => ?_⟩
    · simp only [capacity, hcapacity] at hlt ⊢
      omega
    · simp only [capacity, hcapacity]
      exact hcount

theorem reserveOne_holds (ledger : allocator.Ledger) (valid : table.Valid)
    (h : ledger.holds (table.grants + rest) machine.store)
    (hr : table.reserveOne allocator machine = (result, table', machine')) :
    ledger.holds (table'.grants + rest) machine'.store := by
  have hreservation := hr ▸ reservation allocator machine valid
  cases hreservation with
  | roomy hroom => exact h
  | refused hfull hc hb => exact Buffer.resize?_holds ledger (by decide) hc h hb
  | grown trace hlt hcount hb =>
    exact Buffer.resize?_holds ledger (by decide) (Nat.zero_lt_of_lt hlt) h hb

theorem reserveOne_kept (keeps : ledger.Keeps kept) (valid : table.Valid)
    (h : ledger.holds (table.grants + rest) machine.store)
    (hr : table.reserveOne allocator machine = (result, table', machine')) :
    AgreeOn kept machine.memory machine'.memory := by
  have hreservation := hr ▸ reservation allocator machine valid
  cases hreservation with
  | roomy hroom => exact .refl _ _
  | refused hfull hc hb => exact Buffer.resize?_kept keeps (by decide) hc h hb
  | grown trace hlt hcount hb =>
    have hkept := Buffer.resize?_kept keeps (by decide) (Nat.zero_lt_of_lt hlt) h hb
    exact hkept

end SymbolTable

end ArenaMemory
