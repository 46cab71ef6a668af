import ArenaMemory.Binary64
import ArenaMemory.Proofs.Decimal

namespace ArenaMemory

namespace Binary64

section Congruence

variable {num den num' den' : Nat} {decimal decimal' : Decimal}

theorem bitsOfRatio_congr (hden : 0 < den) (hden' : 0 < den')
    (h : (num / den : ℚ) = num' / den') : bitsOfRatio num den = bitsOfRatio num' den' := by
  have hd : (den : ℚ) ≠ 0 := by exact_mod_cast hden.ne'
  have hd' : (den' : ℚ) ≠ 0 := by exact_mod_cast hden'.ne'
  have hzero : num = 0 ↔ num' = 0 := by
    have hquotient : (num / den : ℚ) = 0 ↔ (num' / den' : ℚ) = 0 := by rw [h]
    simpa [hd, hd'] using hquotient
  rw [bitsOfRatio, bitsOfRatio]
  by_cases hnum : num = 0
  · rw [if_pos hnum, if_pos (hzero.1 hnum)]
  · have hnum' : num' ≠ 0 := fun he => hnum (hzero.2 he)
    have hlog : floorLog 2 num den = floorLog 2 num' den' := by
      rw [floorLog_eq (by decide) (Nat.pos_of_ne_zero hnum) hden,
        floorLog_eq (by decide) (Nat.pos_of_ne_zero hnum') hden', h]
    rw [if_neg hnum, if_neg hnum', hlog]
    dsimp only
    rw [roundHalfEven_congr (scaleRatio_den_pos Nat.two_pos hden)
      (scaleRatio_den_pos Nat.two_pos hden')
      (by rw [scaleRatio_quotient Nat.two_pos, scaleRatio_quotient Nat.two_pos, h])]

theorem bitsOfDecimal_congr (h : decimal.value = decimal'.value) :
    bitsOfDecimal decimal = bitsOfDecimal decimal' := by
  have hpower := fun e : Int => (zpow_pos (show (0 : ℚ) < 10 by norm_num) e).ne'
  have hzero : decimal.digits = 0 ↔ decimal'.digits = 0 := by
    have hvalue : decimal.value = 0 ↔ decimal'.value = 0 := by rw [h]
    simpa [Decimal.value, hpower] using hvalue
  rw [bitsOfDecimal, bitsOfDecimal]
  by_cases hdigits : decimal.digits = 0
  · simp only [hdigits, hzero.1 hdigits, if_true]
  · have hdigits' : decimal'.digits ≠ 0 := fun he => hdigits (hzero.2 he)
    have hleading : decimal.exponent + digitCount 10 decimal.digits =
        decimal'.exponent + digitCount 10 decimal'.digits := by
      rw [Decimal.leading_eq (Nat.pos_of_ne_zero hdigits),
        Decimal.leading_eq (Nat.pos_of_ne_zero hdigits'), h]
    have hbits : bitsOfRatio (scaleRatio 10 decimal.exponent decimal.digits 1).1
        (scaleRatio 10 decimal.exponent decimal.digits 1).2 =
        bitsOfRatio (scaleRatio 10 decimal'.exponent decimal'.digits 1).1
          (scaleRatio 10 decimal'.exponent decimal'.digits 1).2 := by
      refine bitsOfRatio_congr (scaleRatio_den_pos (by decide) Nat.one_pos)
        (scaleRatio_den_pos (by decide) Nat.one_pos) ?_
      rw [scaleRatio_quotient (by decide), scaleRatio_quotient (by decide), Nat.cast_one, div_one,
        div_one]
      exact h
    simp only [if_neg hdigits, if_neg hdigits', hleading, hbits]

theorem bitsOfDecimal_of_value (hden : 0 < den) (hlow : (10 : ℚ) ^ (-330 : Int) ≤ decimal.value)
    (hhigh : decimal.value < (10 : ℚ) ^ (310 : Int)) (h : decimal.value = (num / den : ℚ)) :
    bitsOfDecimal decimal = bitsOfRatio num den := by
  have hdigits : decimal.digits ≠ 0 := by
    intro hzero
    have hpositive := lt_of_lt_of_le (zpow_pos (by norm_num) _) hlow
    simp [Decimal.value, hzero] at hpositive
  have hpositive : 0 < decimal.value := lt_of_lt_of_le (zpow_pos (by norm_num) _) hlow
  have hleading := Decimal.leading_eq (Nat.pos_of_ne_zero hdigits)
  have hlogLow : -330 ≤ Int.log 10 decimal.value :=
    (Int.zpow_le_iff_le_log (by decide) hpositive).1 hlow
  have hlogHigh : Int.log 10 decimal.value < 310 :=
    (Int.lt_zpow_iff_log_lt (by decide) hpositive).1 hhigh
  rw [bitsOfDecimal]
  dsimp only
  rw [if_neg hdigits, if_neg (by omega), if_neg (by omega)]
  refine bitsOfRatio_congr (scaleRatio_den_pos (by decide) Nat.one_pos) hden ?_
  rw [scaleRatio_quotient (by decide), Nat.cast_one, div_one, ← h]
  rfl

end Congruence

section Fields

variable (x : Binary64)

theorem toNat_magnitude : x.magnitude.toNat = x.bits.toNat % 2 ^ 63 := by
  rw [magnitude, UInt64.toNat_and]
  exact Nat.and_two_pow_sub_one_eq_mod _ 63

theorem exponentField_eq : x.exponentField = max (x.magnitude.toNat / 2 ^ 52) 1 := by
  rw [exponentField, UInt64.toNat_shiftRight]
  simp [Nat.shiftRight_eq_div_pow]

theorem significand_eq : x.significand =
    x.magnitude.toNat % 2 ^ 52 + if x.magnitude.toNat < 2 ^ 52 then 0 else 2 ^ 52 := by
  have hfraction : (x.bits &&& 0xFFFFFFFFFFFFF).toNat = x.magnitude.toNat % 2 ^ 52 := by
    rw [UInt64.toNat_and, toNat_magnitude, Nat.mod_mod_of_dvd _ (by decide)]
    exact Nat.and_two_pow_sub_one_eq_mod _ 52
  have hnormal : (0x10000000000000 : UInt64).toNat = 2 ^ 52 := by decide
  simp only [significand, hfraction, UInt64.lt_iff_toNat_lt, hnormal]
  split
  · rw [Nat.add_zero]
  · rfl

/-- The magnitude of a number is its significand and, in the bits above, the exponent. -/
theorem significand_add : x.significand + (x.exponent + 1074).toNat * 0x10000000000000 =
    x.magnitude.toNat := by
  have hdivide := Nat.div_add_mod x.magnitude.toNat (2 ^ 52)
  rw [significand_eq, exponent, exponentField_eq]
  split <;> omega

theorem significand_lt : x.significand < 2 ^ 53 := by
  rw [significand_eq]
  split <;> omega

theorem significand_full : 2 ^ 52 ≤ x.significand ∨ x.exponent = -1074 := by
  rw [significand_eq, exponent, exponentField_eq]
  split <;> omega

theorem significand_pos (hpositive : 0 < x.magnitude.toNat) : 0 < x.significand := by
  have hsum := x.significand_add
  have hfull := x.significand_full
  omega

theorem exponent_ge : -1074 ≤ x.exponent := by
  rw [exponent, exponentField]
  omega

theorem exponent_le (hfinite : x.magnitude.toNat < infinityBits) : x.exponent ≤ 971 := by
  rw [exponent, exponentField_eq]
  rw [infinityBits] at hfinite
  omega

end Fields

section Exact

variable (x : Binary64)

theorem power_eq (hpositive : 0 < x.magnitude.toNat) :
    max (Int.log 2 (x.significand * (2 : ℚ) ^ x.exponent) - 52) (-1074) = x.exponent := by
  have hsignificand := x.significand_pos hpositive
  have hlt : Int.log 2 (x.significand * (2 : ℚ) ^ x.exponent) < 53 + x.exponent := by
    refine (Int.lt_zpow_iff_log_lt (by decide) (by positivity)).1 ?_
    rw [Nat.cast_ofNat, zpow_add₀ (by norm_num)]
    have : (x.significand : ℚ) < 2 ^ (53 : Int) := by exact_mod_cast x.significand_lt
    gcongr
  have hge := x.exponent_ge
  obtain hfull | hleast := x.significand_full
  · have hle : 52 + x.exponent ≤ Int.log 2 (x.significand * (2 : ℚ) ^ x.exponent) := by
      refine (Int.zpow_le_iff_le_log (by decide) (by positivity)).1 ?_
      rw [Nat.cast_ofNat, zpow_add₀ (by norm_num)]
      have : (2 : ℚ) ^ (52 : Int) ≤ x.significand := by exact_mod_cast hfull
      gcongr
    omega
  · omega

/-- A number that is its significand, scaled, is read as its own bits. -/
theorem bitsOfRatio_of_quotient {num den : Nat} (hden : 0 < den) (hpositive : 0 < x.magnitude.toNat)
    (hfinite : x.magnitude.toNat < infinityBits)
    (h : (num / den : ℚ) = x.significand * (2 : ℚ) ^ x.exponent) :
    bitsOfRatio num den = x.magnitude.toNat := by
  have hsignificand := x.significand_pos hpositive
  have hnum : num ≠ 0 := by
    rintro rfl
    have : (0 : ℚ) < x.significand * (2 : ℚ) ^ x.exponent := by positivity
    simp [← h] at this
  have hpower : max (floorLog 2 num den - 52) (-1074) = x.exponent := by
    rw [floorLog_eq (by decide) (Nat.pos_of_ne_zero hnum) hden, h, x.power_eq hpositive]
  have hround : roundHalfEven (scaleRatio 2 (-x.exponent) num den).1
      (scaleRatio 2 (-x.exponent) num den).2 = x.significand := by
    rw [← roundHalfEven_one x.significand]
    refine roundHalfEven_congr (scaleRatio_den_pos Nat.two_pos hden) Nat.one_pos ?_
    rw [scaleRatio_quotient Nat.two_pos, h, Nat.cast_ofNat, mul_assoc,
      ← zpow_add₀ (by norm_num), add_neg_cancel, zpow_zero, Nat.cast_one, mul_one, div_one]
  rw [bitsOfRatio, if_neg hnum]
  dsimp only
  rw [hpower, hround, x.significand_add]
  exact Nat.min_eq_left (Nat.le_of_lt hfinite)

theorem exactDecimal_value :
    x.exactDecimal.value = x.significand * (2 : ℚ) ^ x.exponent := by
  rw [exactDecimal, Decimal.value]
  cases x.exponent with
  | ofNat n =>
    simp only [Nat.pow_eq, Int.ofNat_eq_natCast, zpow_natCast, Nat.cast_mul, Nat.cast_pow, zpow_zero]
    norm_num
  | negSucc n =>
    have hten : (10 : ℚ) ^ (n + 1) = 2 ^ (n + 1) * 5 ^ (n + 1) := by rw [← mul_pow]; norm_num
    simp only [Nat.pow_eq, zpow_negSucc, Nat.cast_mul, Nat.cast_pow, Nat.cast_ofNat, hten]
    field_simp

theorem bitsOfDecimal_exactDecimal (hpositive : 0 < x.magnitude.toNat)
    (hfinite : x.magnitude.toNat < infinityBits) :
    bitsOfDecimal x.exactDecimal = x.magnitude.toNat := by
  have hquotient : ((scaleRatio 2 x.exponent x.significand 1).1 : ℚ) /
      (scaleRatio 2 x.exponent x.significand 1).2 = x.significand * (2 : ℚ) ^ x.exponent := by
    rw [scaleRatio_quotient Nat.two_pos, Nat.cast_one, div_one, Nat.cast_ofNat]
  have hden : 0 < (scaleRatio 2 x.exponent x.significand 1).2 :=
    scaleRatio_den_pos Nat.two_pos Nat.one_pos
  rw [← bitsOfRatio_of_quotient x hden hpositive hfinite hquotient]
  refine bitsOfDecimal_of_value hden ?_ ?_ (by rw [exactDecimal_value, hquotient])
  · rw [exactDecimal_value]
    have hone : (1 : ℚ) ≤ x.significand := by exact_mod_cast x.significand_pos hpositive
    have hpower : (2 : ℚ) ^ 1074 ≤ 10 ^ 330 := by
      exact_mod_cast (by decide +kernel : 2 ^ 1074 ≤ 10 ^ 330)
    calc (10 : ℚ) ^ (-330 : Int) ≤ (2 : ℚ) ^ (-1074 : Int) := inv_anti₀ (by positivity) hpower
      _ ≤ (2 : ℚ) ^ x.exponent := zpow_le_zpow_right₀ (by norm_num) x.exponent_ge
      _ ≤ x.significand * (2 : ℚ) ^ x.exponent := le_mul_of_one_le_left (by positivity) hone
  · rw [exactDecimal_value]
    have hlt : (x.significand : ℚ) < 2 ^ (53 : Int) := by exact_mod_cast x.significand_lt
    calc (x.significand : ℚ) * (2 : ℚ) ^ x.exponent
        < (2 : ℚ) ^ (53 : Int) * 2 ^ x.exponent := by gcongr
      _ ≤ (2 : ℚ) ^ (53 : Int) * 2 ^ (971 : Int) := by
        gcongr
        · norm_num
        · exact x.exponent_le hfinite
      _ = (2 : ℚ) ^ 1024 := by rw [← zpow_add₀ (by norm_num)]; rfl
      _ ≤ (10 : ℚ) ^ 310 := by exact_mod_cast (by decide +kernel : 2 ^ 1024 ≤ 10 ^ 310)

end Exact
end Binary64

end ArenaMemory
