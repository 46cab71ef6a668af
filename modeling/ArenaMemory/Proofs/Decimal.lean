import Mathlib.Data.Int.Log
import Mathlib.Data.Rat.Floor
import Mathlib.Algebra.Order.Floor.Semifield
import Mathlib.Algebra.Order.Field.Power
import Mathlib.Tactic.FieldSimp
import Mathlib.Tactic.Ring
import Mathlib.Tactic.Positivity
import Mathlib.Tactic.NormNum
import ArenaMemory.Decimal

namespace ArenaMemory

section Quotients

variable {base num den num' den' : Nat} {power : Int}

theorem scaleRatio_den_pos (hbase : 0 < base) (hden : 0 < den) :
    0 < (scaleRatio base power num den).2 := by
  cases power with
  | ofNat n => exact hden
  | negSucc n => exact Nat.mul_pos hden (Nat.pow_pos hbase)

theorem scaleRatio_quotient (hbase : 0 < base) :
    ((scaleRatio base power num den).1 : ℚ) / (scaleRatio base power num den).2 =
      (num / den : ℚ) * (base : ℚ) ^ power := by
  have hb : (base : ℚ) ≠ 0 := by positivity
  cases power with
  | ofNat n =>
    simp only [scaleRatio, Nat.pow_eq, Int.ofNat_eq_natCast, zpow_natCast, Nat.cast_mul, Nat.cast_pow]
    ring
  | negSucc n =>
    simp only [scaleRatio, Nat.pow_eq, zpow_negSucc, Nat.cast_mul, Nat.cast_pow]
    field_simp

theorem scaleRatio_le (hbase : 0 < base) (hden : 0 < den) :
    (scaleRatio base (-power) num den).2 ≤ (scaleRatio base (-power) num den).1 ↔
      (base : ℚ) ^ power ≤ (num / den : ℚ) := by
  have hb : (0 : ℚ) < base := by exact_mod_cast hbase
  have hd : (0 : ℚ) < (scaleRatio base (-power) num den).2 := by
    exact_mod_cast scaleRatio_den_pos hbase hden
  rw [← Nat.cast_le (α := ℚ), ← one_le_div hd, scaleRatio_quotient hbase, zpow_neg,
    ← div_eq_mul_inv, one_le_div (zpow_pos hb power)]

theorem digitCount_le_iff {k n : Nat} (hbase : 1 < base) (hk : 0 < k) :
    digitCount base n ≤ k ↔ n < base ^ k :=
  Nat.length_toDigits_le_iff hbase hk

theorem lt_pow_digitCount (hbase : 1 < base) (n : Nat) : n < base ^ digitCount base n :=
  (digitCount_le_iff hbase Nat.length_toDigits_pos).1 (Nat.le_refl _)

theorem pow_digitCount_le {n : Nat} (hbase : 1 < base) (hn : 0 < n) :
    base ^ (digitCount base n - 1) ≤ n := by
  obtain hone | hmore : digitCount base n - 1 = 0 ∨ 0 < digitCount base n - 1 := by omega
  · rw [hone, Nat.pow_zero]
    exact hn
  · by_contra hlt
    have := (digitCount_le_iff hbase hmore).2 (Nat.lt_of_not_le hlt)
    omega

/-- The counts of digits place a quotient between two powers, the square of the base apart. -/
theorem quotient_lt_zpow (hbase : 1 < base) (hden : 0 < den) :
    (num / den : ℚ) < (base : ℚ) ^ ((digitCount base num : Int) - digitCount base den + 1) := by
  have hb : (0 : ℚ) < base := by exact_mod_cast Nat.zero_lt_of_lt hbase
  have hnum : (num : ℚ) < (base : ℚ) ^ digitCount base num := by
    exact_mod_cast lt_pow_digitCount hbase num
  have hlow : (base : ℚ) ^ (digitCount base den - 1) ≤ den := by
    exact_mod_cast pow_digitCount_le hbase hden
  have hcount : 0 < digitCount base den := Nat.length_toDigits_pos
  have hexponent : ((digitCount base num : Int) - digitCount base den + 1) =
      (digitCount base num : Int) - (digitCount base den - 1 : Nat) := by omega
  rw [hexponent, zpow_sub₀ hb.ne', zpow_natCast, zpow_natCast]
  calc (num / den : ℚ) < (base : ℚ) ^ digitCount base num / den := by gcongr
    _ ≤ (base : ℚ) ^ digitCount base num / (base : ℚ) ^ (digitCount base den - 1) := by gcongr

theorem zpow_le_quotient (hbase : 1 < base) (hnum : 0 < num) (hden : 0 < den) :
    (base : ℚ) ^ ((digitCount base num : Int) - digitCount base den - 1) ≤ (num / den : ℚ) := by
  have hb : (0 : ℚ) < base := by exact_mod_cast Nat.zero_lt_of_lt hbase
  have hd : (0 : ℚ) < den := by exact_mod_cast hden
  have hlow : (base : ℚ) ^ (digitCount base num - 1) ≤ num := by
    exact_mod_cast pow_digitCount_le hbase hnum
  have hlt : (den : ℚ) ≤ (base : ℚ) ^ digitCount base den := by
    exact_mod_cast Nat.le_of_lt (lt_pow_digitCount hbase den)
  have hcount : 0 < digitCount base num := Nat.length_toDigits_pos
  have hexponent : ((digitCount base num : Int) - digitCount base den - 1) =
      (digitCount base num - 1 : Nat) - (digitCount base den : Int) := by omega
  rw [hexponent, zpow_sub₀ hb.ne', zpow_natCast, zpow_natCast]
  calc (base : ℚ) ^ (digitCount base num - 1) / (base : ℚ) ^ digitCount base den
      ≤ num / (base : ℚ) ^ digitCount base den := by gcongr
    _ ≤ (num / den : ℚ) := by gcongr

theorem log_eq {q : ℚ} {e : Int} (hbase : 1 < base) (hlow : (base : ℚ) ^ e ≤ q)
    (hhigh : q < (base : ℚ) ^ (e + 1)) : Int.log base q = e := by
  have hb : (0 : ℚ) < base := by exact_mod_cast Nat.zero_lt_of_lt hbase
  have hq : 0 < q := lt_of_lt_of_le (zpow_pos hb e) hlow
  have hge := (Int.zpow_le_iff_le_log hbase hq).1 hlow
  have hlt := (Int.lt_zpow_iff_log_lt hbase hq).1 hhigh
  omega

/-- Of the two candidates that the digit counts leave, the comparison takes the logarithm. -/
theorem floorLog_eq (hbase : 1 < base) (hnum : 0 < num) (hden : 0 < den) :
    floorLog base num den = Int.log base (num / den : ℚ) := by
  have hcompare : ∀ power : Int, (scaleRatio base (-power) num den).2 ≤
      (scaleRatio base (-power) num den).1 ↔ (base : ℚ) ^ power ≤ (num / den : ℚ) := fun _ =>
    scaleRatio_le (Nat.zero_lt_of_lt hbase) hden
  rw [floorLog]
  dsimp only
  split
  next hle => exact (log_eq hbase ((hcompare _).1 hle) (quotient_lt_zpow hbase hden)).symm
  next hlt =>
    refine (log_eq hbase (zpow_le_quotient hbase hnum hden) ?_).symm
    rw [sub_add_cancel]
    exact lt_of_not_ge fun hle => hlt ((hcompare _).2 hle)

theorem roundHalfEven_mul {k : Nat} (hk : 0 < k) :
    roundHalfEven (k * num) (k * den) = roundHalfEven num den := by
  have hcompare : ∀ a b : Nat, k * a < 2 * (k * b) ↔ a < 2 * b := fun a b => by
    rw [Nat.mul_left_comm, Nat.mul_lt_mul_left hk]
  have hequal : ∀ a b : Nat, k * a = 2 * (k * b) ↔ a = 2 * b := fun a b => by
    rw [Nat.mul_left_comm, Nat.mul_right_inj hk.ne']
  simp only [roundHalfEven, Nat.mul_div_mul_left _ _ hk, Nat.mul_mod_mul_left, hcompare, hequal]

theorem roundHalfEven_congr (hden : 0 < den) (hden' : 0 < den')
    (h : (num / den : ℚ) = num' / den') : roundHalfEven num den = roundHalfEven num' den' := by
  have hd : (den : ℚ) ≠ 0 := by exact_mod_cast hden.ne'
  have hd' : (den' : ℚ) ≠ 0 := by exact_mod_cast hden'.ne'
  have hcross : den' * num = den * num' := by
    rw [div_eq_div_iff hd hd', mul_comm, mul_comm (num' : ℚ)] at h
    exact_mod_cast h
  calc roundHalfEven num den = roundHalfEven (den' * num) (den' * den) :=
        (roundHalfEven_mul hden').symm
    _ = roundHalfEven (den * num') (den * den') := by rw [hcross, Nat.mul_comm den']
    _ = roundHalfEven num' den' := roundHalfEven_mul hden

theorem roundHalfEven_one (n : Nat) : roundHalfEven n 1 = n := by
  simp [roundHalfEven, Nat.mod_one]

end Quotients

section Digits

variable {n : Nat} {digits : List Char}

theorem ofDigits_eq (hdigits : ∀ c ∈ digits, c.isDigit) :
    ofDigits 10 digits digitValue = Nat.ofDigitChars 10 digits 0 := by
  have hvalue : ∀ c ∈ digits, digitValue c = c.toNat - '0'.toNat := fun c hc => by
    have hdigit := hdigits c hc
    rw [Char.isDigit, Bool.and_eq_true, decide_eq_true_eq, decide_eq_true_eq] at hdigit
    exact if_pos hdigit
  rw [ofDigits, Nat.ofDigitChars_eq_foldl]
  refine List.foldl_ext _ _ _ fun sum c hc => ?_
  rw [hvalue c hc]

theorem isDigit_toDigits : ∀ c ∈ Nat.toDigits 10 n, c.isDigit := fun _ hc =>
  Nat.isDigit_of_mem_toDigits (by decide) (by decide) hc

theorem isDigit_replicate : ∀ c ∈ List.replicate n '0', c.isDigit := fun c hc => by
  rw [List.eq_of_mem_replicate hc]
  rfl

theorem head?_toDigits (hn : 0 < n) : (Nat.toDigits 10 n).head? ≠ some '0' := by
  induction n using Nat.strongRecOn with
  | ind n ih =>
    rw [Nat.toDigits_eq_if (by decide)]
    split
    next hlt =>
      intro hhead
      have hzero := Nat.digitChar_eq_zero.1 (Option.some.inj hhead)
      exact hn.ne' hzero
    next hge =>
      rw [List.head?_append_of_ne_nil _ Nat.toDigits_ne_nil]
      exact ih (n / 10) (by omega) (by omega)

end Digits

namespace Decimal

def value (decimal : Decimal) : ℚ := decimal.digits * (10 : ℚ) ^ decimal.exponent

theorem leading_eq {decimal : Decimal} (hdigits : 0 < decimal.digits) :
    decimal.exponent + digitCount 10 decimal.digits = Int.log 10 decimal.value + 1 := by
  have hpower := zpow_pos (show (0 : ℚ) < 10 by norm_num) decimal.exponent
  have hcount : 0 < digitCount 10 decimal.digits := Nat.length_toDigits_pos
  have hlow : (10 : ℚ) ^ (digitCount 10 decimal.digits - 1) ≤ decimal.digits := by
    exact_mod_cast pow_digitCount_le (by decide) hdigits
  have hhigh : (decimal.digits : ℚ) < (10 : ℚ) ^ digitCount 10 decimal.digits := by
    exact_mod_cast lt_pow_digitCount (by decide) decimal.digits
  have hlog : Int.log 10 decimal.value =
      decimal.exponent + (digitCount 10 decimal.digits - 1 : Nat) := by
    refine log_eq (by decide) ?_ ?_
    · rw [value, Nat.cast_ofNat, add_comm, zpow_add₀ (by norm_num), zpow_natCast]
      gcongr
    · have hnext : decimal.exponent + (digitCount 10 decimal.digits - 1 : Nat) + 1 =
          decimal.exponent + digitCount 10 decimal.digits := by omega
      rw [value, Nat.cast_ofNat, hnext, add_comm, zpow_add₀ (by norm_num), zpow_natCast]
      gcongr
  omega

section Positional

variable {decimal : Decimal} {whole places : List Char} {digits n : Nat}

/-- The digits before and after a point that write a decimal. Those before it start with zero only
when they are a single zero. -/
structure Written (decimal : Decimal) (whole places : List Char) : Prop where
  isDigit : ∀ c ∈ whole ++ places, c.isDigit
  whole_ne_nil : whole ≠ []
  leading : whole.head? = some '0' → whole = ['0']
  number : Nat.ofDigitChars 10 (whole ++ places) 0 * (10 : ℚ) ^ (-places.length : Int) = decimal.value

namespace Written

theorem value_eq (h : decimal.Written whole places) :
    (⟨ofDigits 10 (whole ++ places) digitValue, -places.length⟩ : Decimal).value = decimal.value := by
  rw [ofDigits_eq h.isDigit]
  exact h.number

theorem append_zero (h : decimal.Written whole places) : decimal.Written whole (places ++ ['0']) where
  isDigit := by
    rw [← List.append_assoc]
    exact List.forall_mem_append.2 ⟨h.isDigit, isDigit_replicate (n := 1)⟩
  whole_ne_nil := h.whole_ne_nil
  leading := h.leading
  number := by
    have hlength : (-(places ++ ['0']).length : Int) = -places.length - 1 := by
      rw [List.length_append, List.length_singleton]
      omega
    rw [← h.number, ← List.append_assoc, Nat.ofDigitChars_append, Nat.ofDigitChars_cons,
      Nat.ofDigitChars_nil, Nat.sub_self, Nat.add_zero, hlength, zpow_sub_one₀ (by norm_num),
      Nat.cast_mul, Nat.cast_ofNat]
    ring

theorem of_exponent_nonneg (hzero : digits = 0 → n = 0) :
    Written ⟨digits, .ofNat n⟩ (Nat.toDigits 10 digits ++ List.replicate n '0') [] where
  isDigit := by
    rw [List.append_nil]
    exact List.forall_mem_append.2 ⟨isDigit_toDigits, isDigit_replicate⟩
  whole_ne_nil := List.append_ne_nil_of_left_ne_nil Nat.toDigits_ne_nil _
  leading hhead := by
    rw [List.head?_append_of_ne_nil _ Nat.toDigits_ne_nil] at hhead
    obtain rfl | hpositive := Nat.eq_zero_or_pos digits
    · rw [hzero rfl]
      rfl
    · exact absurd hhead (head?_toDigits hpositive)
  number := by
    rw [List.append_nil, Nat.ofDigitChars_append, Nat.ofDigitChars_replicate_zero,
      Nat.ofDigitChars_toDigits (by decide) (by decide), value, mul_comm (10 ^ n)]
    simp

theorem of_places_lt (hplaces : n + 1 < (Nat.toDigits 10 digits).length) :
    Written ⟨digits, .negSucc n⟩
      ((Nat.toDigits 10 digits).take ((Nat.toDigits 10 digits).length - (n + 1)))
      ((Nat.toDigits 10 digits).drop ((Nat.toDigits 10 digits).length - (n + 1))) where
  isDigit := by
    rw [List.take_append_drop]
    exact isDigit_toDigits
  whole_ne_nil := by
    rw [ne_eq, List.take_eq_nil_iff, not_or]
    exact ⟨by omega, Nat.toDigits_ne_nil⟩
  leading hhead := by
    rw [List.head?_take, if_neg (by omega)] at hhead
    have hpositive : 0 < digits := by
      rw [Nat.pos_iff_ne_zero]
      rintro rfl
      simp at hplaces
    exact absurd hhead (head?_toDigits hpositive)
  number := by
    have hlength : (Nat.toDigits 10 digits).length -
        ((Nat.toDigits 10 digits).length - (n + 1)) = n + 1 := by omega
    rw [List.take_append_drop, Nat.ofDigitChars_toDigits (by decide) (by decide), List.length_drop,
      hlength]
    rfl

theorem of_length_le (hplaces : (Nat.toDigits 10 digits).length ≤ n + 1) :
    Written ⟨digits, .negSucc n⟩ ['0']
      (List.replicate (n + 1 - (Nat.toDigits 10 digits).length) '0' ++ Nat.toDigits 10 digits) where
  isDigit := List.forall_mem_append.2 ⟨isDigit_replicate (n := 1),
    List.forall_mem_append.2 ⟨isDigit_replicate, isDigit_toDigits⟩⟩
  whole_ne_nil := List.cons_ne_nil _ _
  leading _ := rfl
  number := by
    have hlength : (List.replicate (n + 1 - (Nat.toDigits 10 digits).length) '0' ++
        Nat.toDigits 10 digits).length = n + 1 := by
      rw [List.length_append, List.length_replicate, Nat.sub_add_cancel hplaces]
    rw [Nat.ofDigitChars_append, Nat.ofDigitChars_append, Nat.ofDigitChars_replicate_zero,
      show Nat.ofDigitChars 10 ['0'] 0 = 0 from rfl, Nat.mul_zero,
      Nat.ofDigitChars_toDigits (by decide) (by decide), hlength]
    rfl

end Written

theorem positional_written (hzero : decimal.digits = 0 → decimal.exponent = 0) :
    ∃ whole places, decimal.Written whole places ∧
      decimal.positional = if places = [] then whole else whole ++ '.' :: places := by
  obtain ⟨digits, exponent⟩ := decimal
  cases exponent with
  | ofNat n =>
    exact ⟨_, _, .of_exponent_nonneg fun h => Int.ofNat.inj (hzero h), (if_pos rfl).symm⟩
  | negSucc n =>
    by_cases hplaces : n + 1 < (Nat.toDigits 10 digits).length
    · refine ⟨_, _, .of_places_lt hplaces, (if_pos hplaces).trans (if_neg ?_).symm⟩
      rw [List.drop_eq_nil_iff]
      omega
    · refine ⟨_, _, .of_length_le (Nat.le_of_not_lt hplaces), (if_neg hplaces).trans (if_neg ?_).symm⟩
      exact List.append_ne_nil_of_right_ne_nil _ Nat.toDigits_ne_nil

end Positional

end Decimal

end ArenaMemory
