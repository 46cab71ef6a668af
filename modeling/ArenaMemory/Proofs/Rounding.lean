import Mathlib.Tactic.Ring
import Mathlib.Data.Nat.Bitwise
import Mathlib.Order.Bounds.Basic
import ArenaMemory.Layout

namespace ArenaMemory

/-- The greatest multiple of `a` that is at most `n`. -/
def roundDown (n a : Nat) : Nat := n / a * a

/-- The least multiple of `a` that is at least `n`. -/
def roundUp (n a : Nat) : Nat := (n + (a - 1)) / a * a

section Rounding

variable {n m a : Nat}

theorem dvd_roundDown : a ∣ roundDown n a := Nat.dvd_mul_left a _

theorem roundDown_le : roundDown n a ≤ n := Nat.div_mul_le_self n a

theorem le_roundDown (hm : a ∣ m) (h : m ≤ n) : m ≤ roundDown n a := by
  obtain ⟨k, rfl⟩ := hm
  obtain rfl | ha := Nat.eq_zero_or_pos a
  · simp
  · have hk : k ≤ n / a := (Nat.le_div_iff_mul_le ha).2 (by rwa [Nat.mul_comm])
    calc a * k = k * a := Nat.mul_comm a k
      _ ≤ n / a * a := Nat.mul_le_mul_right a hk

theorem roundDown_eq (h : a ∣ n) : roundDown n a = n := Nat.div_mul_cancel h

theorem roundDown_mod (h : a ∣ m) : roundDown (n % m) a = roundDown n a % m := by
  obtain ⟨k, rfl⟩ := h
  rw [roundDown, roundDown, Nat.mod_mul_right_div_self, Nat.mul_comm a k, Nat.mul_mod_mul_right]

theorem isGreatest_roundDown : IsGreatest {m | a ∣ m ∧ m ≤ n} (roundDown n a) := by
  constructor
  · exact ⟨dvd_roundDown, roundDown_le⟩
  · rintro m ⟨hm, hle⟩
    exact le_roundDown hm hle

theorem dvd_roundUp : a ∣ roundUp n a := Nat.dvd_mul_left a _

theorem le_roundUp (ha : 0 < a) : n ≤ roundUp n a := by
  have hr := Nat.mod_lt (n + (a - 1)) ha
  have hd := Nat.div_add_mod (n + (a - 1)) a
  rw [Nat.mul_comm] at hd
  rw [roundUp]
  omega

theorem roundUp_le (ha : 0 < a) (hm : a ∣ m) (h : n ≤ m) : roundUp n a ≤ m := by
  obtain ⟨k, rfl⟩ := hm
  have hk : (n + (a - 1)) / a < k + 1 := by
    rw [Nat.div_lt_iff_lt_mul ha, Nat.add_mul, Nat.mul_comm k]
    omega
  calc (n + (a - 1)) / a * a ≤ k * a := Nat.mul_le_mul_right a (by omega)
    _ = a * k := Nat.mul_comm k a

theorem roundUp_eq (ha : 0 < a) (h : a ∣ n) : roundUp n a = n :=
  Nat.le_antisymm (roundUp_le ha h (Nat.le_refl n)) (le_roundUp ha)

theorem isLeast_roundUp (ha : 0 < a) : IsLeast {m | a ∣ m ∧ n ≤ m} (roundUp n a) := by
  constructor
  · exact ⟨dvd_roundUp, le_roundUp ha⟩
  · rintro m ⟨hm, hle⟩
    exact roundUp_le ha hm hle

theorem roundUp_pos (ha : 0 < a) (h : 0 < n) : 0 < roundUp n a :=
  Nat.lt_of_lt_of_le h (le_roundUp ha)

end Rounding

/-- Keeping the bits of a word from the `k`th on rounds it down to a multiple of `2 ^ k`. -/
theorem and_high_bits {n k : Nat} (hk : k ≤ 64) (hn : n < 2 ^ 64) :
    n &&& (2 ^ 64 - 1 - (2 ^ k - 1)) = roundDown n (2 ^ k) := by
  have hp : 2 ^ k - 1 < 2 ^ 64 := by
    have := Nat.pow_le_pow_right (n := 2) (by decide) hk
    omega
  rw [roundDown, ← Nat.shiftRight_eq_div_pow, ← Nat.shiftLeft_eq, Nat.sub_sub, Nat.add_comm 1]
  apply Nat.eq_of_testBit_eq
  intro i
  rw [Nat.testBit_and, Nat.testBit_two_pow_sub_succ hp, Nat.testBit_two_pow_sub_one,
    Nat.testBit_shiftLeft, Nat.testBit_shiftRight]
  by_cases hi : i < k
  · simp [hi, Nat.not_le.2 hi]
  · have hki : k ≤ i := Nat.le_of_not_lt hi
    by_cases h64 : i < 64
    · simp [hi, hki, h64]
    · have : n.testBit i = false := Nat.testBit_lt_two_pow
        (Nat.lt_of_lt_of_le hn (Nat.pow_le_pow_right (by decide) (Nat.le_of_not_lt h64)))
      simp [hki, this]

namespace Alignment

variable (a b : Alignment)

theorem exists_exponent : ∃ k < 64, a.bytes.toNat = 2 ^ k := by
  obtain ⟨k, hk⟩ := a.isPowerOfTwo
  refine ⟨k, ?_, hk⟩
  have hlt : 2 ^ k < 2 ^ 64 := hk ▸ a.bytes.toNat_lt
  exact (Nat.pow_lt_pow_iff_right (by decide)).1 hlt

theorem toNat_pos : 0 < a.bytes.toNat := by
  obtain ⟨k, -, hk⟩ := a.exists_exponent
  exact hk ▸ Nat.two_pow_pos k

theorem dvd_of_le {a b : Alignment} (h : a.bytes ≤ b.bytes) : a.bytes.toNat ∣ b.bytes.toNat := by
  obtain ⟨i, -, hi⟩ := a.exists_exponent
  obtain ⟨j, -, hj⟩ := b.exists_exponent
  rw [UInt64.le_iff_toNat_le, hi, hj, Nat.pow_le_pow_iff_right (by decide)] at h
  rw [hi, hj]
  exact Nat.pow_dvd_pow 2 h

theorem dvd_range : a.bytes.toNat ∣ 2 ^ 64 := by
  obtain ⟨k, hk, he⟩ := a.exists_exponent
  exact he ▸ Nat.pow_dvd_pow 2 (Nat.le_of_lt hk)

theorem le_strictest_left : a.bytes ≤ (a.strictest b).bytes := by
  rw [strictest]
  split
  · assumption
  · exact UInt64.le_refl _

theorem le_strictest_right : b.bytes ≤ (a.strictest b).bytes := by
  rw [strictest]
  split
  · exact UInt64.le_refl _
  · exact UInt64.le_of_lt (UInt64.not_le.1 ‹_›)

theorem strictest_le {a b c : Alignment} (ha : a.bytes ≤ c.bytes) (hb : b.bytes ≤ c.bytes) :
    (a.strictest b).bytes ≤ c.bytes := by
  rw [strictest]
  split
  · exact hb
  · exact ha

theorem max_bytes : max a.bytes b.bytes = (a.strictest b).bytes := by
  change (if a.bytes ≤ b.bytes then b.bytes else a.bytes) = _
  rw [strictest]
  split <;> rfl

end Alignment

namespace Word

variable {a b c v r : Word}

theorem toNat_min : (min a b).toNat = min a.toNat b.toNat := by
  change (if a ≤ b then a else b).toNat = _
  simp only [Nat.min_def, UInt64.le_iff_toNat_le]
  split <;> rfl

theorem toNat_max : (max a b).toNat = max a.toNat b.toNat := by
  change (if a ≤ b then b else a).toNat = _
  simp only [Nat.max_def, UInt64.le_iff_toNat_le]
  split <;> rfl

theorem toNat_add_of_lt (h : a.toNat + b.toNat < 2 ^ 64) : (a + b).toNat = a.toNat + b.toNat := by
  rw [UInt64.toNat_add, Nat.mod_eq_of_lt h]

theorem add_lt_left_iff : a + b < a ↔ 2 ^ 64 ≤ a.toNat + b.toNat := by
  have ha := a.toNat_lt
  have hb := b.toNat_lt
  rw [UInt64.lt_iff_toNat_lt, UInt64.toNat_add]
  constructor
  · intro h
    by_contra hlt
    rw [Nat.mod_eq_of_lt (by omega)] at h
    omega
  · intro h
    rw [Nat.mod_eq_sub_mod h, Nat.mod_eq_of_lt (by omega)]
    omega

theorem checkedAdd_eq_some : checkedAdd a b = some c ↔ c.toNat = a.toNat + b.toNat := by
  rw [checkedAdd]
  split
  next h =>
    have hc := c.toNat_lt
    have := add_lt_left_iff.1 h
    simp only [reduceCtorEq, false_iff]
    omega
  next h =>
    have hlt : a.toNat + b.toNat < 2 ^ 64 := Nat.lt_of_not_le fun hle => h (add_lt_left_iff.2 hle)
    rw [Option.some.injEq, ← UInt64.toNat_inj, toNat_add_of_lt hlt, eq_comm]

theorem checkedAdd_eq_none : checkedAdd a b = none ↔ 2 ^ 64 ≤ a.toNat + b.toNat := by
  rw [← add_lt_left_iff]
  rw [checkedAdd]
  split <;> simp_all

theorem toNat_saturatingAdd (a b : Word) :
    (saturatingAdd a b).toNat = min (a.toNat + b.toNat) (2 ^ 64 - 1) := by
  rw [saturatingAdd]
  cases hs : checkedAdd a b with
  | none =>
    have hover := checkedAdd_eq_none.1 hs
    have hmax : maxValue.toNat = 2 ^ 64 - 1 := rfl
    rw [Option.getD_none, hmax]
    omega
  | some sum =>
    have hsum := checkedAdd_eq_some.1 hs
    have hlt := sum.toNat_lt
    rw [Option.getD_some, hsum]
    omega

theorem le_saturatingAdd (a b : Word) : a ≤ saturatingAdd a b := by
  have ha := a.toNat_lt
  rw [UInt64.le_iff_toNat_le, toNat_saturatingAdd]
  omega

theorem le_saturatingAdd_right (a b : Word) : b ≤ saturatingAdd a b := by
  have hb := b.toNat_lt
  rw [UInt64.le_iff_toNat_le, toNat_saturatingAdd]
  omega

theorem toNat_saturatingSub (a b : Word) : (saturatingSub a b).toNat = a.toNat - b.toNat := by
  rw [saturatingSub]
  split
  next hle => exact UInt64.toNat_sub_of_le _ _ hle
  next hlt =>
    rw [UInt64.le_iff_toNat_le] at hlt
    rw [UInt64.toNat_zero]
    omega

theorem toNat_checkedMul_getD (a b : Word) :
    ((checkedMul a b).getD maxValue).toNat = min (a.toNat * b.toNat) (2 ^ 64 - 1) := by
  have hmax : maxValue.toNat = 2 ^ 64 - 1 := rfl
  rw [checkedMul]
  split
  next h =>
    simp only [UInt64.size] at h
    rw [Option.getD_some, UInt64.toNat_mul, Nat.mod_eq_of_lt h]
    omega
  next h =>
    simp only [UInt64.size] at h
    rw [Option.getD_none, hmax]
    omega

theorem ofNat?_eq_some {n : Nat} : ofNat? n = some r ↔ r.toNat = n := by
  rw [ofNat?]
  split
  next h =>
    rw [Option.some.injEq, ← UInt64.toNat_inj, UInt64.toNat_ofNat_of_lt' h, eq_comm]
  next h =>
    have hr := r.toNat_lt
    simp only [reduceCtorEq, false_iff]
    rintro rfl
    exact h hr

theorem toNat_alignDown (v : Word) (a : Alignment) :
    (alignDown v a.bytes).toNat = roundDown v.toNat a.bytes.toNat := by
  obtain ⟨k, hk, he⟩ := a.exists_exponent
  have hone : (1 : Word) ≤ a.bytes := by
    rw [UInt64.le_iff_toNat_le]
    exact a.toNat_pos
  rw [alignDown, UInt64.toNat_and, UInt64.toNat_not, UInt64.toNat_sub_of_le _ _ hone, he]
  exact and_high_bits (Nat.le_of_lt hk) v.toNat_lt

theorem toNat_alignUp (v : Word) (a : Alignment) :
    (alignUp v a.bytes).toNat = roundUp v.toNat a.bytes.toNat % 2 ^ 64 := by
  have hone : (1 : Word) ≤ a.bytes := by
    rw [UInt64.le_iff_toNat_le]
    exact a.toNat_pos
  have hsum : (v + a.bytes - 1).toNat = (v.toNat + (a.bytes.toNat - 1)) % 2 ^ 64 := by
    rw [UInt64.sub_eq_add_neg, UInt64.add_assoc, ← UInt64.sub_eq_add_neg, UInt64.toNat_add,
      UInt64.toNat_sub_of_le _ _ hone, UInt64.toNat_one]
  change (alignDown (v + a.bytes - 1) a.bytes).toNat = _
  rw [toNat_alignDown, hsum, roundDown_mod a.dvd_range]
  rfl

theorem checkedAlignUp_eq_some {a : Alignment} :
    checkedAlignUp v a.bytes = some r ↔ r.toNat = roundUp v.toNat a.bytes.toNat := by
  have ha := a.toNat_pos
  have hone : (1 : Word) ≤ a.bytes := by
    rw [UInt64.le_iff_toNat_le]
    exact ha
  have hsub : (a.bytes - 1).toNat = a.bytes.toNat - 1 := UInt64.toNat_sub_of_le _ _ hone
  rw [checkedAlignUp]
  cases hs : checkedAdd v (a.bytes - 1) with
  | none =>
    rw [checkedAdd_eq_none, hsub] at hs
    simp only [Option.map_none, reduceCtorEq, false_iff]
    have hle : 2 ^ 64 ≤ roundUp v.toNat a.bytes.toNat := le_roundDown a.dvd_range hs
    have hr := r.toNat_lt
    omega
  | some s =>
    rw [checkedAdd_eq_some, hsub] at hs
    rw [Option.map_some, Option.some.injEq, ← UInt64.toNat_inj]
    change (alignDown s a.bytes).toNat = r.toNat ↔ _
    rw [toNat_alignDown, hs, eq_comm]
    rfl

theorem checkedAlignUp_eq_none {a : Alignment} :
    checkedAlignUp v a.bytes = none ↔ 2 ^ 64 ≤ roundUp v.toNat a.bytes.toNat := by
  constructor
  · intro h
    by_contra hlt
    have hr : (UInt64.ofNat (roundUp v.toNat a.bytes.toNat)).toNat =
        roundUp v.toNat a.bytes.toNat :=
      UInt64.toNat_ofNat_of_lt' (Nat.lt_of_not_le hlt)
    rw [checkedAlignUp_eq_some.2 hr] at h
    cases h
  · intro h
    cases hr : checkedAlignUp v a.bytes with
    | none => rfl
    | some r =>
      have := checkedAlignUp_eq_some.1 hr
      have := r.toNat_lt
      omega

end Word

end ArenaMemory
