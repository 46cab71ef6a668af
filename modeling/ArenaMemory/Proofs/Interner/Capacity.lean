import ArenaMemory.Proofs.Interner.Run

namespace ArenaMemory

variable {σ : Type}

theorem Layout.isSome_array {element : Layout} {count : Nat} :
    (element.array count).isSome ↔ element.size.toNat * count < UInt64.size := by
  rw [array, ofCount?, Option.isSome_map, Word.ofNat?]
  split <;> simp_all

namespace LoadFactor

variable (factor : LoadFactor)

theorem two_mul_threshold_le (slots : Nat) :
    2 * factor.threshold slots ≤ factor.threshold (2 * slots) := by
  rcases Nat.eq_zero_or_pos slots with rfl | hpos
  · exact Nat.le_refl _
  · rw [threshold, threshold, if_neg (by omega), if_neg (by omega), Nat.mul_assoc,
      Nat.shiftRight_eq_div_pow, Nat.shiftRight_eq_div_pow]
    have hshare := Nat.mul_div_le_mul_div_assoc 2 (slots * factor.value.significand)
      (2 ^ (-factor.value.exponent).toNat)
    omega

theorem two_mul_threshold_pow_le {i j : Nat} (h : i < j) :
    2 * factor.threshold (2 ^ i) ≤ factor.threshold (2 ^ j) := by
  induction j, h using Nat.le_induction with
  | base => exact Nat.pow_succ' ▸ factor.two_mul_threshold_le (2 ^ i)
  | succ j _ ih =>
    have hstep := factor.two_mul_threshold_le (2 ^ j)
    rw [Nat.pow_succ']
    omega

end LoadFactor

namespace SymbolTable

/-- If the table has an array, then the first one had a layout. -/
def Fitted (table : SymbolTable) : Prop :=
  table.capacity = 0 ∨ (Entry.layout.array table.initialCapacity).isSome

variable {allocator : Allocator σ} {table table' : SymbolTable} {machine machine' : Machine σ}
  {result : Except InternFailure Unit}

theorem Fitted.reserveOne (fitted : table.Fitted)
    (ht : table.reserveOne allocator machine = (result, table', machine')) :
    table'.Fitted ∧ table'.initialCapacity = table.initialCapacity := by
  rw [SymbolTable.reserveOne] at ht
  dsimp only at ht
  split at ht
  · obtain ⟨-, rfl, -⟩ := ht
    exact ⟨fitted, rfl⟩
  · split at ht
    · obtain ⟨-, rfl, -⟩ := ht
      exact ⟨fitted, rfl⟩
    next buffer served hr =>
      obtain ⟨-, rfl, -⟩ := ht
      refine ⟨.inr ?_, rfl⟩
      split at hr
      · exact Buffer.isSome_array hr
      next hcapacity => exact fitted.resolve_left hcapacity

theorem array_nextCapacity (hfull : table.capacity ≤ table.count)
    (hcount : table.count < Interner.maxSymbols)
    (hnone : Entry.layout.array table.nextCapacity = none) :
    table.capacity = 0 ∧ Entry.layout.array table.initialCapacity = none := by
  rw [nextCapacity] at hnone
  split at hnone
  next hzero => exact ⟨hzero, hnone⟩
  · have hsome : (Entry.layout.array (2 * table.capacity)).isSome := by
      rw [Layout.isSome_array]
      have hmax : table.capacity < 0xFFFFFFFF := Nat.lt_of_le_of_lt hfull hcount
      have hsize : Entry.layout.size.toNat = 16 := rfl
      rw [hsize, UInt64.size]
      omega
    rw [hnone] at hsome
    cases hsome

end SymbolTable

namespace SymbolMap

/-- If the map has slots, they are a power of two that has a layout and may hold a symbol. -/
def Fitted (map : SymbolMap) : Prop :=
  map.capacity = 0 ∨ ∃ k < 64, map.capacity = 2 ^ k ∧ leastCapacity ≤ 2 ^ k ∧
    0 < map.loadFactor.threshold (2 ^ k) ∧ (Slot.layout.array (2 ^ k)).isSome

/-- How many slots a map has that was given so many symbols one by one. -/
def slotsFor (factor : LoadFactor) (count : Nat) : Nat :=
  if count = 0 then 0 else (capacityFor? factor 0 count).getD 0

variable {allocator : Allocator σ} {map map' : SymbolMap} {machine machine' : Machine σ}
  {result : Except InternFailure Unit} {factor : LoadFactor} {additional capacity needed k : Nat}

theorem capacityFor?_eq (factor : LoadFactor) (capacity needed : Nat) :
    capacityFor? factor capacity needed = ((List.range 64).find? fun k =>
      max capacity leastCapacity ≤ 2 ^ k && needed ≤ factor.threshold (2 ^ k)).map (2 ^ ·) := by
  rw [capacityFor?, List.find?_map]
  rfl

theorem capacityFor?_eq_some_iff {slots : Nat} :
    capacityFor? factor capacity needed = some slots ↔ ∃ k < 64, slots = 2 ^ k ∧
      max capacity leastCapacity ≤ 2 ^ k ∧ needed ≤ factor.threshold (2 ^ k) ∧
      ∀ j < k, max capacity leastCapacity ≤ 2 ^ j → factor.threshold (2 ^ j) < needed := by
  simp only [capacityFor?_eq, Option.map_eq_some_iff, List.find?_range_eq_some, Bool.and_eq_true,
    decide_eq_true_eq, List.mem_range, Bool.not_eq_true', Bool.and_eq_false_iff,
    decide_eq_false_iff_not]
  constructor
  · rintro ⟨k, ⟨⟨hle, hneeded⟩, hk, hleast⟩, rfl⟩
    exact ⟨k, hk, rfl, hle, hneeded, fun j hj hcap =>
      Nat.lt_of_not_le ((hleast j hj).resolve_left (not_not_intro hcap))⟩
  · rintro ⟨k, hk, rfl, hle, hneeded, hleast⟩
    refine ⟨k, ⟨⟨hle, hneeded⟩, hk, fun j hj => ?_⟩, rfl⟩
    exact Decidable.or_iff_not_imp_left.2 fun hcap =>
      Nat.not_le_of_lt (hleast j hj (Decidable.not_not.1 hcap))

/-- Slots that do not suffice have no part in how many are needed. -/
theorem capacityFor?_pow (hfull : factor.threshold (2 ^ k) < needed) :
    capacityFor? factor (2 ^ k) needed = capacityFor? factor 0 needed := by
  rw [capacityFor?_eq, capacityFor?_eq]
  congr 2
  funext j
  by_cases hj : needed ≤ factor.threshold (2 ^ j)
  · have hkj : k ≤ j := by
      by_contra hlt
      have htwice := factor.two_mul_threshold_pow_le (Nat.lt_of_not_le hlt)
      omega
    have hpow : 2 ^ k ≤ 2 ^ j := Nat.pow_le_pow_right (by decide) hkj
    simp [hpow]
  · simp [hj]

theorem capacityFor?_threshold (hk : k < 64) (hleast : leastCapacity ≤ 2 ^ k)
    (hpos : 0 < factor.threshold (2 ^ k)) :
    capacityFor? factor 0 (factor.threshold (2 ^ k)) = some (2 ^ k) := by
  refine capacityFor?_eq_some_iff.2
    ⟨k, hk, rfl, by rwa [Nat.zero_max], Nat.le_refl _, fun j hj _ => ?_⟩
  have htwice := factor.two_mul_threshold_pow_le hj
  omega

theorem capacityFor?_le (hk : k < 64) (hleast : leastCapacity ≤ 2 ^ k)
    (hroom : needed ≤ factor.threshold (2 ^ k)) :
    ∃ slots ≤ 2 ^ k, capacityFor? factor 0 needed = some slots := by
  cases hc : capacityFor? factor 0 needed with
  | none =>
    rw [capacityFor?_eq, Option.map_eq_none_iff, List.find?_range_eq_none] at hc
    have hnot := hc k hk
    simp [hleast, hroom] at hnot
  | some slots =>
    obtain ⟨i, -, rfl, -, -, hfirst⟩ := capacityFor?_eq_some_iff.1 hc
    refine ⟨2 ^ i, Nat.pow_le_pow_right (by decide) (Nat.le_of_not_lt fun hlt => ?_), rfl⟩
    exact Nat.not_lt_of_le hroom (hfirst k hlt (by rwa [Nat.zero_max]))

namespace Fitted

theorem reserve (fitted : map.Fitted) (hadditional : 0 < additional)
    (hr : map.reserve allocator additional machine = (result, map', machine')) :
    map'.Fitted ∧ map'.loadFactor = map.loadFactor := by
  have hreservation := hr ▸ reservation allocator map additional machine
  cases hreservation with
  | roomy | unplanned | denied => exact ⟨fitted, rfl⟩
  | grown hle hpos hneeded ha hz hc =>
    obtain ⟨k, hk, rfl, hmax, -⟩ := capacityFor?_eq_some_iff.1 hc
    exact ⟨.inr ⟨k, hk, rfl, by omega, by dsimp only; omega, Option.isSome_of_eq_some ha⟩, rfl⟩

/-- A full map has as many slots, and will have, as if all its symbols had been added to none. -/
theorem filled (fitted : map.Fitted) (hle : map.count ≤ map.loadFactor.threshold map.capacity)
    (hfull : ¬ map.count + 1 ≤ map.loadFactor.threshold map.capacity) :
    map.capacity = slotsFor map.loadFactor map.count ∧
      capacityFor? map.loadFactor map.capacity (map.count + 1) =
        capacityFor? map.loadFactor 0 (map.count + 1) := by
  obtain hzero | ⟨k, hk, hcapacity, hleast, hpos, -⟩ := fitted
  · rw [hzero, LoadFactor.threshold_zero] at hle
    rw [hzero, slotsFor, if_pos (Nat.eq_zero_of_le_zero hle)]
    exact ⟨rfl, rfl⟩
  · rw [hcapacity] at hle hfull ⊢
    have hcount : map.count = map.loadFactor.threshold (2 ^ k) := by omega
    refine ⟨?_, capacityFor?_pow (by omega)⟩
    rw [slotsFor, if_neg (by omega), hcount, capacityFor?_threshold hk hleast hpos]
    rfl

theorem isSome_array (fitted : map.Fitted) (hpos : 0 < needed)
    (hroom : needed ≤ map.loadFactor.threshold map.capacity) :
    ((capacityFor? map.loadFactor 0 needed).bind Slot.layout.array).isSome := by
  obtain hzero | ⟨k, hk, hcapacity, hleast, -, hsome⟩ := fitted
  · rw [hzero, LoadFactor.threshold_zero] at hroom
    omega
  · rw [hcapacity] at hroom
    obtain ⟨slots, hle, hc⟩ := capacityFor?_le hk hleast hroom
    rw [hc, Option.bind_some, Layout.isSome_array]
    exact Nat.lt_of_le_of_lt (Nat.mul_le_mul_left _ hle) (Layout.isSome_array.1 hsome)

end Fitted

end SymbolMap

namespace Interner

/-- What an interner keeps of how it was created, and what it has reached with that. -/
structure Fits (factor : LoadFactor) (initialCapacity : Nat) (interner : Interner) : Prop where
  factor_eq : interner.map.loadFactor = factor
  initial_eq : interner.table.initialCapacity = initialCapacity
  map : interner.map.Fitted
  table : interner.table.Fitted

variable {contentHash : ContentHash} {allocator : Allocator σ} {start machine machine' : Machine σ}
  {others : Multiset Grant → Machine σ → Machine σ → Prop} {factor : LoadFactor}
  {interner interner' : Interner} {initialCapacity : Nat} {op : Operation} {answer : Answer}
  {events : List (Operation × Answer)}

theorem Fits.reserveOne {table : SymbolTable} {result : Except InternFailure Unit}
    (fits : Fits factor initialCapacity interner)
    (ht : interner.table.reserveOne allocator machine = (result, table, machine')) :
    Fits factor initialCapacity { interner with table } := by
  obtain ⟨hfitted, hinitial⟩ := fits.table.reserveOne ht
  exact ⟨fits.factor_eq, hinitial.trans fits.initial_eq, fits.map, hfitted⟩

theorem Fits.reserve {map : SymbolMap} {additional : Nat} {result : Except InternFailure Unit}
    (fits : Fits factor initialCapacity interner) (hadditional : 0 < additional)
    (hm : interner.map.reserve allocator additional machine = (result, map, machine')) :
    Fits factor initialCapacity { interner with map } := by
  obtain ⟨hfitted, hfactor⟩ := fits.map.reserve hadditional hm
  exact ⟨hfactor.trans fits.factor_eq, fits.initial_eq, hfitted, fits.table⟩

theorem stepwise_fits : Stepwise allocator fun interner _ interner' _ =>
    Fits factor initialCapacity interner → Fits factor initialCapacity interner' where
  refl _ _ := id
  trans h h' := h' ∘ h
  insert := by
    intro interner hash bytes machine result interner' machine' hi trace fits
    have hinsertion := insertion allocator interner hash bytes machine
    rw [hi] at hinsertion
    cases hinsertion with
    | full => exact fits
    | tableExhausted _ ht => exact fits.reserveOne ht
    | mapExhausted _ ht hm => exact (fits.reserveOne ht).reserve Nat.one_pos hm
    | arenaExhausted _ ht hm hd | issued _ ht hm hd =>
      obtain ⟨hfactor, hinitial, hmap, htable⟩ := (fits.reserveOne ht).reserve Nat.one_pos hm
      exact ⟨hfactor, hinitial, hmap, htable⟩

theorem Fits.clear (fits : Fits factor initialCapacity interner) (allocator : Allocator σ)
    (machine : Machine σ) : Fits factor initialCapacity (interner.clear allocator machine).1 :=
  ⟨fits.factor_eq, fits.initial_eq, fits.map, fits.table⟩

theorem Fits.deinit (fits : Fits factor initialCapacity interner) (allocator : Allocator σ)
    (machine : Machine σ) : Fits factor initialCapacity (interner.deinit allocator machine).1 :=
  ⟨fits.factor_eq, fits.initial_eq, .inl rfl, .inl rfl⟩

theorem Fits.perform (fits : Fits factor initialCapacity interner)
    (hp : op.perform contentHash allocator interner machine = (answer, interner', machine')) :
    Fits factor initialCapacity interner' := by
  cases op with
  | intern bytes | internText text | internCString bytes =>
    exact stepwise_fits.intern (Prod.ext rfl (Prod.mk.inj hp).2) fits
  | internMany items => exact stepwise_fits.internMany (Prod.ext rfl (Prod.mk.inj hp).2) fits
  | get bytes | contains bytes | resolve symbol | count | list =>
    obtain ⟨-, rfl, -⟩ := hp
    exact fits
  | clear =>
    obtain ⟨-, rfl, -⟩ := hp
    exact fits.clear allocator machine
  | deinit =>
    obtain ⟨-, rfl, -⟩ := hp
    exact fits.deinit allocator machine

theorem Fits.presize {capacity : Nat} (fits : Fits factor initialCapacity interner)
    (hp : interner.presize allocator capacity machine = (.ok interner', machine')) :
    Fits factor initialCapacity interner' := by
  have hpresizing := hp ▸ presizing allocator interner capacity machine
  cases hpresizing with
  | nothing => exact fits
  | made hpos ht hm => exact (fits.reserveOne ht).reserve hpos hm

theorem Run.fits (run : Run contentHash allocator others start events interner machine) :
    Fits interner.map.loadFactor interner.table.initialCapacity interner := by
  suffices h : ∃ factor initialCapacity, Fits factor initialCapacity interner by
    obtain ⟨factor, initialCapacity, fits⟩ := h
    exact ⟨rfl, rfl, fits.map, fits.table⟩
  induction run with
  | create => exact ⟨_, _, rfl, rfl, .inl rfl, .inl rfl⟩
  | presize hp =>
    exact ⟨_, _, Fits.presize ⟨rfl, rfl, .inl rfl, .inl rfl⟩ hp⟩
  | perform op _ hp ih =>
    obtain ⟨factor, initialCapacity, fits⟩ := ih
    exact ⟨factor, initialCapacity, fits.perform hp⟩
  | others _ _ ih => exact ih

end Interner

end ArenaMemory
