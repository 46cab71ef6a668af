import ArenaMemory.Proofs.Binary64.Reading

namespace ArenaMemory

namespace Decimal

variable {decimal : Decimal}

theorem strip_value (decimal : Decimal) (count : Nat) :
    (decimal.strip count).value = decimal.value := by
  fun_induction strip decimal count with
  | case1 decimal => rfl
  | case2 decimal count hzero ih =>
    obtain ⟨digits, hdigits⟩ := Nat.dvd_of_mod_eq_zero hzero
    rw [ih, value, value, zpow_add_one₀ (by norm_num), hdigits, Nat.mul_div_cancel_left _ (by decide),
      Nat.cast_mul, Nat.cast_ofNat]
    ring
  | case3 decimal count hdigit => rfl

end Decimal

namespace Binary64

section Sign

variable (x : Binary64)

theorem isNegative_eq : x.isNegative = decide (2 ^ 63 ≤ x.bits.toNat) := by
  simp only [isNegative, UInt64.le_iff_toNat_le]
  rfl

theorem ofMagnitude_magnitude : ofMagnitude x.isNegative x.magnitude.toNat = x := by
  obtain ⟨bits⟩ := x
  rw [ofMagnitude, mk.injEq, ← UInt64.toNat_inj, UInt64.toNat_or, UInt64.ofNat_toNat,
    toNat_magnitude, isNegative_eq]
  have hbits := bits.toNat_lt
  by_cases hnegative : 2 ^ 63 ≤ bits.toNat
  · have hmod : bits.toNat % 2 ^ 63 < 2 ^ 63 := Nat.mod_lt _ (by decide)
    have hsum : bits.toNat = 2 ^ 63 * 1 + bits.toNat % 2 ^ 63 := by omega
    simp only [decide_eq_true hnegative, if_true]
    rw [Nat.or_comm]
    exact (Nat.two_pow_add_eq_or_of_lt hmod 1).symm.trans hsum.symm
  · simp only [decide_eq_false hnegative, Bool.false_eq_true, if_false]
    exact (Nat.or_zero _).trans (Nat.mod_eq_of_lt (Nat.lt_of_not_le hnegative))

end Sign

section Classes

variable {x : Binary64}

theorem magnitude_lt (hnan : x.isNaN = false) (hinfinite : x.isInfinite = false) :
    x.magnitude.toNat < infinityBits := by
  rw [isNaN, decide_eq_false_iff_not, UInt64.lt_iff_toNat_lt] at hnan
  rw [isInfinite, decide_eq_false_iff_not, ← UInt64.toNat_inj] at hinfinite
  exact Nat.lt_of_le_of_ne (Nat.le_of_not_lt hnan) hinfinite

theorem ofMagnitude_infinityBits (hinfinite : x.isInfinite = true) :
    ofMagnitude x.isNegative infinityBits = x := by
  rw [isInfinite, decide_eq_true_eq] at hinfinite
  have hmagnitude : x.magnitude.toNat = infinityBits := by rw [hinfinite]; rfl
  rw [← hmagnitude, ofMagnitude_magnitude]

theorem ne_infinity (hfinite : x.magnitude.toNat < infinityBits) : x ≠ infinity := by
  rintro rfl
  exact absurd hfinite (by decide)

/-- The number that a text stands for: all that is no number has one text. -/
def canonical (x : Binary64) : Binary64 := if x.isNaN then nan else x

theorem canonical_of_isNaN (hnan : x.isNaN = true) : x.canonical = nan := if_pos hnan

theorem canonical_of_not_isNaN (hnan : x.isNaN = false) : x.canonical = x :=
  if_neg (Bool.eq_false_iff.1 hnan)

theorem not_isNaN_of_inUnitInterval (hunit : x.inUnitInterval = true) : x.isNaN = false := by
  rw [inUnitInterval, Bool.and_eq_true, decide_eq_true_eq, decide_eq_true_eq,
    UInt64.lt_iff_toNat_lt, UInt64.lt_iff_toNat_lt] at hunit
  rw [isNaN, decide_eq_false_iff_not, UInt64.lt_iff_toNat_lt, toNat_magnitude]
  have hone : one.bits.toNat ≤ infinity.bits.toNat := by decide
  omega

end Classes

section Shortest

variable {x : Binary64} {count : Nat} {decimal : Decimal}

theorem readsBack_of_decimalOf? (h : x.decimalOf? count = some decimal) :
    bitsOfDecimal decimal = x.magnitude.toNat := by
  simp only [decimalOf?, Bool.and_eq_true] at h
  split at h
  next hlow =>
    obtain rfl := Option.some.inj h
    simpa [readsBack] using hlow.1
  next =>
    split at h
    next hhigh =>
      obtain rfl := Option.some.inj h
      simpa [readsBack] using hhigh
    next => contradiction

theorem bitsOfDecimal_shortest (hfinite : x.magnitude.toNat < infinityBits) :
    bitsOfDecimal x.shortest = x.magnitude.toNat := by
  rw [shortest]
  split
  next hzero => rw [hzero]; rfl
  next hzero =>
    split
    next decimal hfound =>
      obtain ⟨count, -, hread⟩ := List.exists_of_findSome?_eq_some hfound
      rw [bitsOfDecimal_congr (decimal.strip_value _), readsBack_of_decimalOf? hread]
    next =>
      have hpositive : 0 < x.magnitude.toNat := by
        rw [Nat.pos_iff_ne_zero, ne_eq, ← UInt64.toNat_zero, UInt64.toNat_inj]
        exact hzero
      exact x.bitsOfDecimal_exactDecimal hpositive hfinite

theorem shortest_exponent (hfinite : x.magnitude.toNat < infinityBits)
    (hdigits : x.shortest.digits = 0) : x.shortest.exponent = 0 := by
  have hbits : bitsOfDecimal x.shortest = 0 := if_pos hdigits
  rw [bitsOfDecimal_shortest hfinite, ← UInt64.toNat_zero, UInt64.toNat_inj] at hbits
  rw [shortest, if_pos hbits]

/-- Whatever decimal has the value of the shortest is read as the number, if the sign goes with it.
-/
theorem ofDecimal_of_value (hfinite : x.magnitude.toNat < infinityBits)
    (h : decimal.value = x.shortest.value) : ofDecimal x.isNegative decimal = x := by
  rw [ofDecimal, bitsOfDecimal_congr h, bitsOfDecimal_shortest hfinite, ofMagnitude_magnitude]

end Shortest

end Binary64

end ArenaMemory
