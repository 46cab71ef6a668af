import ArenaMemory.Allocator.Platform
import ArenaMemory.Proofs.Interner.Doubling

namespace ArenaMemory

variable {σ : Type}

/-- What holds of a table in which there were at most `peak` entries since it was last emptied for
good. -/
structure SymbolTable.Bounded (initial peak : Nat) (table : SymbolTable) : Prop where
  initial_eq : table.initialCapacity = initial
  valid : table.Valid
  count_le : table.count ≤ peak
  doubled : table.capacity = 0 ∨ ∃ k, table.capacity = initial * 2 ^ k
  capacity_le : table.capacity ≤ max initial (2 * peak)

/-- What holds of a map in which there were at most `peak` symbols since it was last emptied for
good, and that was made with room for `reserved`. -/
structure SymbolMap.Bounded (reserved peak : Nat) (map : SymbolMap) : Prop where
  count_le : map.count ≤ peak
  room : map.count ≤ map.loadFactor.threshold map.capacity
  capacity_le : ∀ slots, SymbolMap.Suitable map.loadFactor 0 (max (peak + 1) reserved) slots →
    map.capacity ≤ slots

variable {allocator : Allocator σ} {machine machine' : Machine σ}
  {result : Except InternFailure Unit} {initial reserved peak peak' : Nat}

namespace SymbolTable

variable {table table' : SymbolTable}

theorem count_push (table : SymbolTable) (entry : Entry) :
    (table.push entry).count = table.count + 1 := Array.size_push entry

namespace Bounded

theorem mono (bounded : table.Bounded initial peak) (h : peak ≤ peak') :
    table.Bounded initial peak' :=
  { bounded with
    count_le := bounded.count_le.trans h
    capacity_le := bounded.capacity_le.trans (by omega) }

theorem reserveOne (bounded : table.Bounded initial peak)
    (ht : table.reserveOne allocator machine = (result, table', machine')) :
    table'.Bounded initial peak ∧ table'.count = table.count ∧
      (result = .ok () → table.count < table'.capacity) := by
  obtain hroom | hfull := Nat.lt_or_ge table.count table.capacity
  · rw [SymbolTable.reserveOne, if_pos hroom] at ht
    obtain ⟨-, rfl, -⟩ := ht
    exact ⟨bounded, rfl, fun _ => hroom⟩
  have hreservation := ht ▸ reservation allocator machine bounded.valid
  cases hreservation with
  | roomy hroom => exact absurd hroom (Nat.not_lt_of_le hfull)
  | refused => exact ⟨bounded, rfl, by simp⟩
  | @grown buffer machine' trace hlt hcount hb =>
    have hcapacity : ({ table with buffer } : SymbolTable).capacity = table.nextCapacity :=
      Buffer.resize?_capacity hb
    rw [← hcapacity] at hcount
    have hle := bounded.count_le
    refine ⟨⟨bounded.initial_eq, ⟨bounded.valid.initial_pos, Nat.le_of_lt hcount⟩, hle, ?_, ?_⟩,
      rfl, fun _ => hcount⟩
    · rw [hcapacity, nextCapacity, bounded.initial_eq]
      split
      · exact .inr ⟨0, by rw [Nat.pow_zero, Nat.mul_one]⟩
      next hzero =>
        obtain ⟨k, hk⟩ := bounded.doubled.resolve_left hzero
        exact .inr ⟨k + 1, by rw [hk, Nat.pow_succ']; ring⟩
    · rw [hcapacity, nextCapacity, bounded.initial_eq]
      split <;> omega

theorem push (bounded : table.Bounded initial peak) (hroom : table.count < table.capacity)
    (entry : Entry) : (table.push entry).Bounded initial (max peak (table.count + 1)) := by
  have hcount := count_push table entry
  have hmono := bounded.mono (Nat.le_max_left peak (table.count + 1))
  exact { hmono with
    valid := ⟨bounded.valid.initial_pos, hcount ▸ hroom⟩
    count_le := hcount ▸ Nat.le_max_right _ _ }

theorem clear (bounded : table.Bounded initial peak) : table.clear.Bounded initial peak :=
  { bounded with
    valid := ⟨bounded.valid.initial_pos, Nat.zero_le _⟩
    count_le := Nat.zero_le _ }

theorem release (bounded : table.Bounded initial peak) (allocator : Allocator σ)
    (machine : Machine σ) : (table.release allocator machine).1.Bounded initial 0 where
  initial_eq := bounded.initial_eq
  valid := ⟨bounded.valid.initial_pos, Nat.le_refl _⟩
  count_le := Nat.le_refl _
  doubled := .inl rfl
  capacity_le := Nat.zero_le _

end Bounded

theorem bounded_ofCapacity (capacity : Nat) :
    (ofCapacity capacity).Bounded (max capacity 1) 0 where
  initial_eq := rfl
  valid := ⟨Nat.lt_of_lt_of_le Nat.one_pos (Nat.le_max_right capacity 1), Nat.le_refl _⟩
  count_le := Nat.le_refl _
  doubled := .inl rfl
  capacity_le := Nat.zero_le _

theorem capacity_of_ofCapacity {capacity : Nat} (hpos : 0 < capacity)
    (ht : (ofCapacity capacity).reserveOne allocator machine = (.ok (), table, machine')) :
    table.capacity = capacity := by
  have hreservation := ht ▸ reservation allocator machine (bounded_ofCapacity capacity).valid
  cases hreservation with
  | roomy hroom => exact absurd hroom (Nat.not_lt_zero _)
  | grown trace hlt hcount hb =>
    have hnext : (ofCapacity capacity).nextCapacity = max capacity 1 := rfl
    have hcapacity := Buffer.resize?_capacity hb
    rw [hnext, Nat.max_eq_left hpos] at hcapacity
    exact hcapacity

end SymbolTable

namespace SymbolMap

variable {map map' : SymbolMap} {additional : Nat}

namespace Bounded

theorem mono (bounded : map.Bounded reserved peak) (h : peak ≤ peak') :
    map.Bounded reserved peak' where
  count_le := bounded.count_le.trans h
  room := bounded.room
  capacity_le := fun slots ⟨hpow, hleast, hneeded⟩ =>
    bounded.capacity_le slots ⟨hpow, hleast, Nat.le_trans (by omega) hneeded⟩

theorem reserve (bounded : map.Bounded reserved peak)
    (hneeded : map.count + additional ≤ max (peak + 1) reserved)
    (hr : map.reserve allocator additional machine = (result, map', machine')) :
    map'.Bounded reserved peak ∧ map'.count = map.count ∧
      (result = .ok () → map.count + additional ≤ map'.loadFactor.threshold map'.capacity) := by
  obtain hfull | hroom := Nat.lt_or_ge (map.loadFactor.threshold map.capacity)
    (map.count + additional)
  case inr =>
    rw [reserve_roomy hroom] at hr
    obtain ⟨-, rfl, -⟩ := hr
    exact ⟨bounded, rfl, fun _ => hroom⟩
  have hstep := hr ▸ growthStep hfull
  cases hstep with
  | unplanned | refused => exact ⟨bounded, rfl, by simp⟩
  | grown hrange hleast hz =>
    have hsuitable := hleast.1.2.2
    refine ⟨⟨bounded.count_le, Nat.le_trans (Nat.le_add_right _ _) hsuitable,
      fun slots hslots => hleast.2 ?_⟩, rfl, fun _ => hsuitable⟩
    have hcapacity := bounded.capacity_le slots hslots
    obtain ⟨hpow, hmost, hthreshold⟩ := hslots
    exact ⟨hpow, Nat.max_le.2 ⟨hcapacity, (Nat.max_le.1 hmost).2⟩, hneeded.trans hthreshold⟩

theorem insertUnique (bounded : map.Bounded reserved peak)
    (hroom : map.count + 1 ≤ map.loadFactor.threshold map.capacity) (hash : UInt64) (id : UInt32) :
    (map.insertUnique hash id).Bounded reserved (max peak (map.count + 1)) :=
  { bounded.mono (Nat.le_max_left peak (map.count + 1)) with
    count_le := Nat.le_max_right _ _
    room := hroom }

theorem clear (bounded : map.Bounded reserved peak) : map.clear.Bounded reserved peak :=
  ⟨Nat.zero_le _, Nat.zero_le _, bounded.capacity_le⟩

end Bounded

theorem bounded_empty (factor : LoadFactor) (reserved : Nat) :
    ({ loadFactor := factor } : SymbolMap).Bounded reserved 0 :=
  ⟨Nat.le_refl _, Nat.zero_le _, fun _ _ => Nat.zero_le _⟩

end SymbolMap

namespace Interner

/-- The largest count, after an operation that ends with `count` symbols. Giving all memory back
starts it anew. -/
def Operation.peakAfter (op : Operation) (peak count : Nat) : Nat :=
  match op with
  | deinit => 0
  | _ => max peak count

/-- The runs of an interner, with its initial capacity, the room that was made when it was
created and the largest count since then or since all memory was given back. -/
inductive Gauged (contentHash : ContentHash) (allocator : Allocator σ)
    (others : Multiset Grant → Machine σ → Machine σ → Prop) (start : Machine σ) :
    Nat → Nat → Nat → Interner → Machine σ → Prop where
  | create (anchor loadFactor capacity arenaLimit) :
      Gauged contentHash allocator others start (max capacity 1) 0 0
        (.create anchor loadFactor capacity arenaLimit) start
  | presize {anchor loadFactor capacity arenaLimit interner machine} :
      (Interner.create anchor loadFactor capacity arenaLimit).presize allocator capacity start =
        (.ok interner, machine) →
      Gauged contentHash allocator others start (max capacity 1) capacity 0 interner machine
  | perform {initial reserved peak interner machine answer interner' machine'} (op : Operation) :
      Gauged contentHash allocator others start initial reserved peak interner machine →
      op.perform contentHash allocator interner machine = (answer, interner', machine') →
      Gauged contentHash allocator others start initial reserved (op.peakAfter peak interner'.count)
        interner' machine'
  | others {initial reserved peak interner machine machine'} :
      Gauged contentHash allocator others start initial reserved peak interner machine →
      others interner.grants machine machine' →
      Gauged contentHash allocator others start initial reserved peak interner machine'

structure Bounded (initial reserved peak : Nat) (interner : Interner) : Prop where
  table : interner.table.Bounded initial peak
  map : interner.map.Bounded reserved peak
  count_eq : interner.map.count = interner.count

variable {contentHash : ContentHash} {others : Multiset Grant → Machine σ → Machine σ → Prop}
  {start : Machine σ} {interner interner' : Interner} {op : Operation} {answer : Answer}
  {events : List (Operation × Answer)}

theorem Gauged.run (gauged :
      Gauged contentHash allocator others start initial reserved peak interner machine) :
    ∃ events, Run contentHash allocator others start events interner machine := by
  induction gauged with
  | create => exact ⟨_, .create _ _ _ _⟩
  | presize hp => exact ⟨_, .presize hp⟩
  | perform op gauged hp ih =>
    obtain ⟨events, run⟩ := ih
    exact ⟨_, run.perform op hp⟩
  | others gauged ho ih =>
    obtain ⟨events, run⟩ := ih
    exact ⟨_, run.others ho⟩

theorem Run.gauged (run : Run contentHash allocator others start events interner machine) :
    ∃ initial reserved peak,
      Gauged contentHash allocator others start initial reserved peak interner machine := by
  induction run with
  | create => exact ⟨_, _, _, .create _ _ _ _⟩
  | presize hp => exact ⟨_, _, _, .presize hp⟩
  | perform op run hp ih =>
    obtain ⟨initial, reserved, peak, gauged⟩ := ih
    exact ⟨_, _, _, gauged.perform op hp⟩
  | others run ho ih =>
    obtain ⟨initial, reserved, peak, gauged⟩ := ih
    exact ⟨_, _, _, gauged.others ho⟩

theorem Bounded.mono (bounded : interner.Bounded initial reserved peak) (h : peak ≤ peak') :
    interner.Bounded initial reserved peak' :=
  ⟨bounded.table.mono h, bounded.map.mono h, bounded.count_eq⟩

theorem Bounded.reserveOne {table : SymbolTable}
    (bounded : interner.Bounded initial reserved peak)
    (ht : interner.table.reserveOne allocator machine = (result, table, machine')) :
    ({ interner with table } : Interner).Bounded initial reserved peak ∧
      table.count = interner.count ∧ (result = .ok () → table.count < table.capacity) := by
  obtain ⟨htable, hcount, hroom⟩ := bounded.table.reserveOne ht
  exact ⟨⟨htable, bounded.map, bounded.count_eq.trans hcount.symm⟩, hcount, hcount ▸ hroom⟩

theorem Bounded.reserve {map : SymbolMap} {additional : Nat}
    (bounded : interner.Bounded initial reserved peak)
    (hneeded : interner.map.count + additional ≤ max (peak + 1) reserved)
    (hm : interner.map.reserve allocator additional machine = (result, map, machine')) :
    ({ interner with map } : Interner).Bounded initial reserved peak ∧
      (result = .ok () → map.count + additional ≤ map.loadFactor.threshold map.capacity) := by
  obtain ⟨hmap, hcount, hroom⟩ := bounded.map.reserve hneeded hm
  exact ⟨⟨bounded.table, hmap, hcount.trans bounded.count_eq⟩, hcount ▸ hroom⟩

theorem Bounded.reserve_one {map : SymbolMap} (bounded : interner.Bounded initial reserved peak)
    (hm : interner.map.reserve allocator 1 machine = (result, map, machine')) :
    ({ interner with map } : Interner).Bounded initial reserved peak ∧
      (result = .ok () → map.count + 1 ≤ map.loadFactor.threshold map.capacity) :=
  bounded.reserve (Nat.le_trans (Nat.succ_le_succ bounded.map.count_le) (Nat.le_max_left _ _)) hm

theorem Bounded.withArena (bounded : interner.Bounded initial reserved peak) (arena : Region) :
    ({ interner with arena } : Interner).Bounded initial reserved peak :=
  ⟨bounded.table, bounded.map, bounded.count_eq⟩

theorem Bounded.add (bounded : interner.Bounded initial reserved peak)
    (htable : interner.table.count < interner.table.capacity)
    (hmap : interner.map.count + 1 ≤ interner.map.loadFactor.threshold interner.map.capacity)
    (hash : UInt64) (id : UInt32) (entry : Entry) :
    ({ interner with
        map := interner.map.insertUnique hash id
        table := interner.table.push entry } : Interner).Bounded initial reserved
      (max peak (interner.table.push entry).count) := by
  have hcount := interner.table.count_push entry
  have hmapCount : interner.map.count = interner.table.count := bounded.count_eq
  have hinserted := bounded.map.insertUnique hmap hash id
  rw [hmapCount] at hinserted
  rw [hcount]
  exact ⟨bounded.table.push htable entry, hinserted,
    (congrArg (· + 1) hmapCount).trans hcount.symm⟩

/-- A failed insertion may leave more room, for one symbol beyond those there are. -/
theorem stepwise_bounded : Stepwise allocator fun interner _ interner' _ =>
    ∀ peak, interner.Bounded initial reserved peak →
      interner.count ≤ interner'.count ∧
        interner'.Bounded initial reserved (max peak interner'.count) where
  refl interner machine peak bounded := ⟨Nat.le_refl _, bounded.mono (Nat.le_max_left _ _)⟩
  trans := by
    intro interner machine interner' machine' interner'' machine'' h h' peak bounded
    obtain ⟨hle, bounded'⟩ := h peak bounded
    obtain ⟨hle', bounded''⟩ := h' _ bounded'
    rw [Nat.max_assoc, Nat.max_eq_right hle'] at bounded''
    exact ⟨hle.trans hle', bounded''⟩
  insert := by
    intro interner hash bytes machine result interner' machine' hi trace peak bounded
    have hinsertion := insertion allocator interner hash bytes machine
    rw [hi] at hinsertion
    cases hinsertion with
    | full => exact ⟨Nat.le_refl _, bounded.mono (Nat.le_max_left _ _)⟩
    | tableExhausted _ ht =>
      obtain ⟨hgrown, hcount, -⟩ := bounded.reserveOne ht
      exact ⟨Nat.le_of_eq hcount.symm, hgrown.mono (Nat.le_max_left _ _)⟩
    | mapExhausted _ ht hm =>
      obtain ⟨htable, hcount, -⟩ := bounded.reserveOne ht
      obtain ⟨hgrown, -⟩ := htable.reserve_one hm
      exact ⟨Nat.le_of_eq hcount.symm, hgrown.mono (Nat.le_max_left _ _)⟩
    | @arenaExhausted table map arena first second machine' _ ht hm hd =>
      obtain ⟨htable, hcount, -⟩ := bounded.reserveOne ht
      obtain ⟨hgrown, -⟩ := htable.reserve_one hm
      exact ⟨Nat.le_of_eq hcount.symm, (hgrown.withArena arena).mono (Nat.le_max_left _ _)⟩
    | @issued table map arena addr first second machine' _ ht hm hd =>
      obtain ⟨htable, hcount, hroom⟩ := bounded.reserveOne ht
      obtain ⟨hgrown, hmapRoom⟩ := htable.reserve_one hm
      have hadded := hgrown.add (hroom rfl) (hmapRoom rfl) hash (UInt32.ofNat interner.count)
        ⟨addr, bytes.length⟩
      have hafter := table.count_push ⟨addr, bytes.length⟩
      have hle : interner.count ≤ (table.push ⟨addr, bytes.length⟩).count := by omega
      exact ⟨hle, hadded.withArena arena⟩

theorem Bounded.answered {bytes : List UInt8} (bounded : interner.Bounded initial reserved peak)
    (hp : Operation.perform.answered (interner.intern contentHash allocator bytes machine) =
      (answer, interner', machine')) :
    interner'.Bounded initial reserved (max peak interner'.count) := by
  rcases hi : interner.intern contentHash allocator bytes machine with ⟨result, next, served⟩
  rw [hi] at hp
  obtain ⟨-, rfl, rfl⟩ := hp
  exact (stepwise_bounded.intern hi peak bounded).2

theorem Bounded.perform (bounded : interner.Bounded initial reserved peak)
    (hp : op.perform contentHash allocator interner machine = (answer, interner', machine')) :
    interner'.Bounded initial reserved (op.peakAfter peak interner'.count) := by
  cases op with
  | intern | internText | internCString => exact bounded.answered hp
  | internMany items =>
    rcases hi : interner.internMany contentHash allocator items machine with ⟨result, next, served⟩
    simp only [Operation.perform, hi] at hp
    obtain ⟨-, rfl, rfl⟩ := hp
    exact (stepwise_bounded.internMany hi peak bounded).2
  | get bytes | contains bytes | resolve symbol | count | list =>
    obtain ⟨-, rfl, -⟩ := hp
    exact bounded.mono (Nat.le_max_left _ _)
  | clear =>
    obtain ⟨-, rfl, -⟩ := hp
    exact Bounded.mono ⟨bounded.table.clear, bounded.map.clear, rfl⟩ (Nat.le_max_left _ _)
  | deinit =>
    obtain ⟨-, rfl, -⟩ := hp
    exact ⟨bounded.table.release allocator machine, SymbolMap.bounded_empty _ _, rfl⟩

theorem Bounded.presize {capacity : Nat} (bounded : interner.Bounded initial capacity peak)
    (hempty : interner.count = 0)
    (hp : interner.presize allocator capacity machine = (.ok interner', machine')) :
    interner'.Bounded initial capacity peak := by
  have hpresizing := hp ▸ presizing allocator interner capacity machine
  cases hpresizing with
  | nothing => exact bounded
  | made _ ht hm =>
    have hneeded : interner.map.count + capacity ≤ max (peak + 1) capacity := by
      rw [bounded.count_eq, hempty, Nat.zero_add]
      exact Nat.le_max_right _ _
    exact ((bounded.reserveOne ht).1.reserve hneeded hm).1

theorem bounded_create (anchor : Word) (loadFactor : LoadFactor) (capacity : Nat)
    (arenaLimit : Option Word) (reserved : Nat) :
    (Interner.create anchor loadFactor capacity arenaLimit).Bounded (max capacity 1) reserved 0 :=
  ⟨SymbolTable.bounded_ofCapacity capacity, SymbolMap.bounded_empty loadFactor reserved, rfl⟩

theorem Gauged.bounded (gauged :
      Gauged contentHash allocator others start initial reserved peak interner machine) :
    interner.Bounded initial reserved peak := by
  induction gauged with
  | create => exact bounded_create _ _ _ _ _
  | presize hp => exact (bounded_create _ _ _ _ _).presize rfl hp
  | perform op gauged hp ih => exact ih.perform hp
  | others gauged ho ih => exact ih

theorem doubling?_of_fitted {map : SymbolMap} (fitted : map.Fitted) (needed : Nat) :
    SymbolMap.doubling? map.loadFactor needed 60 (max map.capacity SymbolMap.leastCapacity) =
      some (SymbolMap.capacityFor? map.loadFactor map.capacity needed) :=
  SymbolMap.doubling?_eq (fitted.imp_right fun ⟨k, hk, hcapacity, _⟩ => ⟨k, hk, hcapacity⟩)

/-- Map and table grow to what the count needs and no further. The map grows to the least power of
two that suffices, or is exhausted and stays as it is. -/
theorem growth_bounded (run : Run contentHash allocator others start events interner machine) :
    (0 < interner.map.loadFactor.share ∧ interner.map.loadFactor.share < 1 ∧
      ∀ slots, interner.map.loadFactor.threshold slots =
        min ⌊slots * interner.map.loadFactor.share⌋₊ (slots - 1)) ∧
    (interner.map.capacity = 0 ∨ ∃ k, interner.map.capacity = 2 ^ k ∧ 16 ≤ interner.map.capacity) ∧
    interner.count ≤ interner.map.loadFactor.threshold interner.map.capacity ∧
    (∀ additional (idle : Machine σ),
      (interner.map.count + additional ≤
          interner.map.loadFactor.threshold interner.map.capacity →
        interner.map.reserve allocator additional idle = (.ok (), interner.map, idle)) ∧
      (interner.map.loadFactor.threshold interner.map.capacity <
          interner.map.count + additional →
        SymbolMap.GrowthStep allocator interner.map (interner.map.count + additional) idle
          (interner.map.reserve allocator additional idle))) ∧
    (∀ needed, SymbolMap.doubling? interner.map.loadFactor needed 60
        (max interner.map.capacity SymbolMap.leastCapacity) =
      some (SymbolMap.capacityFor? interner.map.loadFactor interner.map.capacity needed)) ∧
    (∃ initial reserved peak,
      Gauged contentHash allocator others start initial reserved peak interner machine) ∧
    ∀ initial reserved peak,
      Gauged contentHash allocator others start initial reserved peak interner machine →
      1 ≤ initial ∧
      (interner.table.capacity = 0 ∨ ∃ k, interner.table.capacity = initial * 2 ^ k) ∧
      interner.table.capacity ≤ max initial (2 * peak) ∧
      ∀ slots, SymbolMap.Suitable interner.map.loadFactor 0 (max (peak + 1) reserved) slots →
        interner.map.capacity ≤ slots := by
  have fitted := run.fits.map
  obtain ⟨_, _, _, gauged⟩ := run.gauged
  have hroom := gauged.bounded.map.room
  rw [gauged.bounded.count_eq] at hroom
  refine ⟨⟨LoadFactor.share_pos _, LoadFactor.share_lt_one _, LoadFactor.threshold_eq_floor _⟩, ?_,
    hroom, fun additional idle => ⟨SymbolMap.reserve_roomy, SymbolMap.growthStep⟩,
    doubling?_of_fitted fitted, run.gauged, ?_⟩
  · refine fitted.imp_right fun ⟨k, _, hcapacity, hleast, _⟩ => ⟨k, hcapacity, ?_⟩
    rw [hcapacity]
    exact hleast
  · intro initial reserved peak gauged
    obtain ⟨table, map, -⟩ := gauged.bounded
    have hpos := table.valid.initial_pos
    rw [table.initial_eq] at hpos
    exact ⟨hpos, table.doubled, table.capacity_le, map.capacity_le⟩

theorem growth_bounded_failing : ∃ (interner : Interner) (machine : Machine Platform),
    interner.count = 0 ∧ interner.table.capacity = 4 ∧ interner.map.capacity = 16 ∧
      Gauged (fun _ => 7) Platform.plainWindow (fun _ _ _ => False) { store := ⟨.ofCap 1000, {}⟩ }
        4 0 0 interner machine ∧
      interner.table.capacity ≤ max 4 (2 * 0) ∧
      ∀ slots, SymbolMap.Suitable .threeQuarters 0 (max (0 + 1) 0) slots →
        interner.map.capacity ≤ slots := by
  have hcreated : Gauged (fun _ => 7) Platform.plainWindow (fun _ _ _ => False)
      { store := ⟨.ofCap 1000, {}⟩ } 4 0 0 (.create 0x10000 .threeQuarters 4 none)
      { store := ⟨.ofCap 1000, {}⟩ } := .create 0x10000 .threeQuarters 4 none
  have hfailed := (hcreated.perform (.intern [97]) rfl).perform (.intern [98]) rfl
  obtain ⟨events, hrun⟩ := hfailed.run
  obtain ⟨-, -, -, -, -, -, hbounds⟩ := growth_bounded hrun
  obtain ⟨-, -, htable, hmap⟩ := hbounds 4 0 0 hfailed
  exact ⟨_, _, rfl, rfl, rfl, hfailed, htable, hmap⟩

end Interner

end ArenaMemory
