import Mathlib.Algebra.Order.Floor.Semifield
import Mathlib.Order.Bounds.Defs
import ArenaMemory.Proofs.Binary64.Reading
import ArenaMemory.Proofs.Interner.Capacity

namespace ArenaMemory

variable {σ : Type}

namespace LoadFactor

variable (factor : LoadFactor)

def share : ℚ := factor.value.significand * 2 ^ factor.value.exponent

theorem magnitude_bounds : 0 < factor.value.magnitude.toNat ∧
    factor.value.magnitude.toNat < Binary64.one.bits.toNat := by
  have hunit := factor.inUnitInterval
  rw [Binary64.inUnitInterval, Bool.and_eq_true, decide_eq_true_eq, decide_eq_true_eq,
    UInt64.lt_iff_toNat_lt, UInt64.lt_iff_toNat_lt] at hunit
  have hone : Binary64.one.bits.toNat < 2 ^ 63 := by decide
  rw [Binary64.toNat_magnitude, Nat.mod_eq_of_lt (hunit.2.trans hone)]
  exact hunit

theorem exponent_le : factor.value.exponent ≤ -53 := by
  have hone : Binary64.one.bits.toNat = 1023 * 2 ^ 52 := by decide
  have hlt := factor.magnitude_bounds.2
  rw [Binary64.exponent, Binary64.exponentField_eq]
  omega

theorem share_pos : 0 < factor.share := by
  have hsignificand := Binary64.significand_pos _ factor.magnitude_bounds.1
  rw [share]
  positivity

theorem share_lt_one : factor.share < 1 := by
  have hsignificand : (factor.value.significand : ℚ) < 2 ^ (53 : Int) := by
    exact_mod_cast factor.value.significand_lt
  have hexponent : (2 : ℚ) ^ factor.value.exponent ≤ 2 ^ (-53 : Int) :=
    zpow_le_zpow_right₀ (by norm_num) factor.exponent_le
  calc factor.share < 2 ^ (53 : Int) * 2 ^ factor.value.exponent :=
        mul_lt_mul_of_pos_right hsignificand (by positivity)
    _ ≤ 2 ^ (53 : Int) * 2 ^ (-53 : Int) := mul_le_mul_of_nonneg_left hexponent (by positivity)
    _ = 1 := by norm_num

/-- The bits of the significand that are shifted out are the fraction. -/
theorem threshold_eq_floor (slots : Nat) :
    factor.threshold slots = min ⌊slots * factor.share⌋₊ (slots - 1) := by
  obtain rfl | hpos := Nat.eq_zero_or_pos slots
  · rw [threshold_zero, Nat.zero_sub, Nat.min_zero]
  have hexponent := factor.exponent_le
  have hpower : (2 : ℚ) ^ factor.value.exponent =
      1 / ((2 ^ (-factor.value.exponent).toNat : Nat) : ℚ) := by
    rw [Nat.cast_pow, Nat.cast_ofNat, ← zpow_natCast, Int.toNat_of_nonneg (by omega), zpow_neg,
      one_div, inv_inv]
  have hvalue : (slots * factor.share : ℚ) =
      ((slots * factor.value.significand : Nat) : ℚ) /
        ((2 ^ (-factor.value.exponent).toNat : Nat) : ℚ) := by
    rw [share, hpower, Nat.cast_mul]
    ring
  rw [threshold, if_neg (Nat.ne_of_gt hpos), hvalue, Nat.floor_div_eq_div,
    Nat.shiftRight_eq_div_pow]

end LoadFactor

namespace SymbolMap

/-- A number of slots to grow to: a power of two, no fewer than before and the least there may be,
of which enough may be taken. -/
def Suitable (factor : LoadFactor) (capacity needed slots : Nat) : Prop :=
  (∃ k, slots = 2 ^ k) ∧ max capacity leastCapacity ≤ slots ∧ needed ≤ factor.threshold slots

/-- The search as a loop that doubles. The outer `none` is a loop that has not ended after so many
rounds, the inner one a number of slots that would leave the range. -/
def doubling? (factor : LoadFactor) (needed : Nat) : Nat → Nat → Option (Option Nat)
  | 0, _ => none
  | rounds + 1, slots =>
    if needed ≤ factor.threshold slots then some (some slots)
    else if 2 * slots < 2 ^ 64 then doubling? factor needed rounds (2 * slots)
    else some none

/-- How a map ends that has too few slots for what it is to hold: with the least number of slots
that suffices, or as it was, when that number leaves the range or the allocator refuses it. -/
inductive GrowthStep (allocator : Allocator σ) (map : SymbolMap) (needed : Nat)
    (machine : Machine σ) : Except InternFailure Unit × SymbolMap × Machine σ → Prop where
  | unplanned : (∀ slots, Suitable map.loadFactor map.capacity needed slots → 2 ^ 64 ≤ slots) →
      GrowthStep allocator map needed machine (.error (.mapExhausted map.capacity), map, machine)
  | refused {slots machine'} : slots < 2 ^ 64 →
      IsLeast {slots | Suitable map.loadFactor map.capacity needed slots} slots →
      allocator.zallocArray Slot.layout slots machine = (none, machine') →
      GrowthStep allocator map needed machine (.error (.mapExhausted map.capacity), map, machine')
  | grown {slots addr machine'} : slots < 2 ^ 64 →
      IsLeast {slots | Suitable map.loadFactor map.capacity needed slots} slots →
      allocator.zallocArray Slot.layout slots machine = (some addr, machine') →
      GrowthStep allocator map needed machine
        (.ok (), { map with buffer := ⟨addr, slots⟩, slots := rehashed map.slots slots },
          map.buffer.release allocator Slot.layout
            (machine'.emit (.bufferGrew .map map.capacity slots)))

variable {allocator : Allocator σ} {map : SymbolMap} {machine : Machine σ}
  {factor : LoadFactor} {additional capacity capacity' needed slots rounds j : Nat}

theorem capacityFor?_isLeast : capacityFor? factor capacity needed = some slots ↔
    slots < 2 ^ 64 ∧ IsLeast {slots | Suitable factor capacity needed slots} slots := by
  rw [capacityFor?_eq_some_iff]
  constructor
  · rintro ⟨k, hk, rfl, hmax, hneeded, hfirst⟩
    refine ⟨Nat.pow_lt_pow_right (by decide) hk, ⟨⟨k, rfl⟩, hmax, hneeded⟩, ?_⟩
    rintro other ⟨⟨j, rfl⟩, hmax', hneeded'⟩
    by_contra hlt
    have hj : j < k := (Nat.pow_lt_pow_iff_right (by decide)).1 (Nat.lt_of_not_le hlt)
    exact Nat.not_lt_of_le hneeded' (hfirst j hj hmax')
  · rintro ⟨hrange, ⟨⟨k, rfl⟩, hmax, hneeded⟩, hleast⟩
    refine ⟨k, (Nat.pow_lt_pow_iff_right (by decide)).1 hrange, rfl, hmax, hneeded,
      fun j hj hmax' => Nat.lt_of_not_le fun hneeded' => ?_⟩
    have hle : 2 ^ k ≤ 2 ^ j := hleast ⟨⟨j, rfl⟩, hmax', hneeded'⟩
    exact Nat.not_lt_of_le hle (Nat.pow_lt_pow_right (by decide) hj)

theorem capacityFor?_eq_none : capacityFor? factor capacity needed = none ↔
    ∀ slots, Suitable factor capacity needed slots → 2 ^ 64 ≤ slots := by
  constructor
  · rintro hnone slots ⟨⟨k, rfl⟩, hmax, hneeded⟩
    rw [capacityFor?_eq, Option.map_eq_none_iff, List.find?_range_eq_none] at hnone
    by_contra hlt
    have hk : k < 64 := (Nat.pow_lt_pow_iff_right (by decide)).1 (Nat.lt_of_not_le hlt)
    have hnot := hnone k hk
    simp [hmax, hneeded] at hnot
  · intro hrange
    rw [Option.eq_none_iff_forall_ne_some]
    intro slots hsome
    obtain ⟨hlt, hleast⟩ := capacityFor?_isLeast.1 hsome
    exact Nat.not_lt_of_le (hrange slots hleast.1) hlt

theorem capacityFor?_congr (h : ∀ slots, Suitable factor capacity needed slots ↔
      Suitable factor capacity' needed slots) :
    capacityFor? factor capacity needed = capacityFor? factor capacity' needed := by
  refine Option.ext fun slots => ?_
  simp only [capacityFor?_isLeast, h]

theorem suitable_max :
    Suitable factor (max capacity leastCapacity) needed slots ↔
      Suitable factor capacity needed slots := by
  rw [Suitable, Suitable, Nat.max_assoc, Nat.max_self]

theorem suitable_double (hleast : leastCapacity ≤ 2 ^ j)
    (hfull : factor.threshold (2 ^ j) < needed) :
    Suitable factor (2 ^ (j + 1)) needed slots ↔ Suitable factor (2 ^ j) needed slots := by
  constructor
  · rintro ⟨hpow, hmax, hneeded⟩
    rw [Nat.pow_succ] at hmax
    exact ⟨hpow, by omega, hneeded⟩
  · rintro ⟨⟨k, rfl⟩, hmax, hneeded⟩
    have hle : j ≤ k := (Nat.pow_le_pow_iff_right (by decide)).1 (Nat.max_le.1 hmax).1
    have hne : j ≠ k := by
      rintro rfl
      omega
    have hpow : 2 ^ (j + 1) ≤ 2 ^ k := Nat.pow_le_pow_right (by decide) (by omega)
    exact ⟨⟨k, rfl⟩, Nat.max_le.2 ⟨hpow, (Nat.max_le.1 hmax).2⟩, hneeded⟩

theorem doubling?_pow (hleast : leastCapacity ≤ 2 ^ j) (hj : j < 64) (hrounds : 64 - j ≤ rounds) :
    doubling? factor needed rounds (2 ^ j) = some (capacityFor? factor (2 ^ j) needed) := by
  induction rounds generalizing j with
  | zero => omega
  | succ rounds ih =>
    rw [doubling?]
    split
    next hneeded =>
      rw [capacityFor?_isLeast.2 ⟨Nat.pow_lt_pow_right (by decide) hj,
        ⟨⟨j, rfl⟩, Nat.max_le.2 ⟨Nat.le_refl _, hleast⟩, hneeded⟩,
        fun slots hslots => (Nat.max_le.1 hslots.2.1).1⟩]
    next hfull =>
      have hdouble : ∀ slots, Suitable factor (2 ^ (j + 1)) needed slots ↔
          Suitable factor (2 ^ j) needed slots :=
        fun _ => suitable_double hleast (Nat.lt_of_not_le hfull)
      rw [← Nat.pow_succ']
      split
      next hrange =>
        have hlt : j + 1 < 64 := (Nat.pow_lt_pow_iff_right (by decide)).1 hrange
        have hpow : 2 ^ j ≤ 2 ^ (j + 1) := Nat.pow_le_pow_right (by decide) (Nat.le_succ j)
        rw [ih (hleast.trans hpow) hlt (by omega), capacityFor?_congr hdouble]
      next hover =>
        rw [capacityFor?_eq_none.2 fun slots hslots => ?_]
        have hmax := ((hdouble slots).2 hslots).2.1
        omega

/-- However small the share, the loop ends within sixty rounds. -/
theorem doubling?_eq (hcapacity : capacity = 0 ∨ ∃ k < 64, capacity = 2 ^ k) :
    doubling? factor needed 60 (max capacity leastCapacity) =
      some (capacityFor? factor capacity needed) := by
  have hmax : ∃ j, 4 ≤ j ∧ j < 64 ∧ max capacity leastCapacity = 2 ^ j := by
    obtain rfl | ⟨k, hk, rfl⟩ := hcapacity
    · exact ⟨4, by decide, by decide, by decide⟩
    · obtain hle | hge := Nat.le_total 4 k
      · have hpow : leastCapacity ≤ 2 ^ k := Nat.pow_le_pow_right Nat.two_pos hle
        exact ⟨k, hle, hk, Nat.max_eq_left hpow⟩
      · have hpow : 2 ^ k ≤ leastCapacity := Nat.pow_le_pow_right Nat.two_pos hge
        exact ⟨4, by decide, by decide, Nat.max_eq_right hpow⟩
  obtain ⟨j, hfour, hj, hpow⟩ := hmax
  have hleast : leastCapacity ≤ 2 ^ j := hpow ▸ Nat.le_max_right _ _
  rw [hpow, doubling?_pow hleast hj (by omega), ← hpow]
  exact congrArg some (capacityFor?_congr fun slots => suitable_max)

theorem reserve_roomy (hroom : map.count + additional ≤ map.loadFactor.threshold map.capacity) :
    map.reserve allocator additional machine = (.ok (), map, machine) := by
  rw [reserve, if_pos hroom]

theorem growthStep (hfull : map.loadFactor.threshold map.capacity < map.count + additional) :
    GrowthStep allocator map (map.count + additional) machine
      (map.reserve allocator additional machine) := by
  rw [reserve, if_neg (Nat.not_le_of_lt hfull)]
  cases hc : capacityFor? map.loadFactor map.capacity (map.count + additional) with
  | none => exact .unplanned (capacityFor?_eq_none.1 hc)
  | some slots =>
    obtain ⟨hrange, hleast⟩ := capacityFor?_isLeast.1 hc
    dsimp only
    rw [rehash]
    rcases hz : allocator.zallocArray Slot.layout slots machine with ⟨_ | addr, machine'⟩
    · exact .refused hrange hleast hz
    · exact .grown hrange hleast hz

theorem reserve_threshold {map' : SymbolMap} {machine' : Machine σ}
    {result : Except InternFailure Unit}
    (hm : map.reserve allocator additional machine = (result, map', machine')) :
    map'.count = map.count ∧
      map.loadFactor.threshold map.capacity ≤ map'.loadFactor.threshold map'.capacity ∧
      (result = .ok () → map.count + additional ≤ map'.loadFactor.threshold map'.capacity) := by
  obtain hfull | hroom := Nat.lt_or_ge (map.loadFactor.threshold map.capacity)
    (map.count + additional)
  case inr =>
    rw [reserve_roomy hroom] at hm
    obtain ⟨-, rfl, -⟩ := hm
    exact ⟨rfl, Nat.le_refl _, fun _ => hroom⟩
  have hstep := hm ▸ growthStep hfull
  cases hstep with
  | unplanned | refused => exact ⟨rfl, Nat.le_refl _, by simp⟩
  | grown _ hleast =>
    have hneeded := hleast.1.2.2
    exact ⟨rfl, Nat.le_of_lt (Nat.lt_of_lt_of_le hfull hneeded), fun _ => hneeded⟩

end SymbolMap

end ArenaMemory
