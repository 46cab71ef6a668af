import ArenaMemory.Proofs.Rounding

namespace ArenaMemory

namespace Word

variable {v w r s : Word} {a b : Alignment}

theorem isSome_checkedAlignUp :
    (checkedAlignUp v a.bytes).isSome ↔ roundUp v.toNat a.bytes.toNat < 2 ^ 64 := by
  rw [← Nat.not_le, ← checkedAlignUp_eq_none, Option.isSome_iff_ne_none]

theorem alignDown_mono (h : v ≤ w) : alignDown v a.bytes ≤ alignDown w a.bytes := by
  rw [UInt64.le_iff_toNat_le] at h
  rw [UInt64.le_iff_toNat_le, toNat_alignDown, toNat_alignDown]
  apply le_roundDown dvd_roundDown
  exact Nat.le_trans roundDown_le h

theorem checkedAlignUp_mono (h : v ≤ w) (hs : checkedAlignUp w a.bytes = some s) :
    ∃ r, checkedAlignUp v a.bytes = some r ∧ r ≤ s := by
  rw [checkedAlignUp_eq_some] at hs
  rw [UInt64.le_iff_toNat_le] at h
  have hle : roundUp v.toNat a.bytes.toNat ≤ s.toNat := by
    rw [hs]
    apply roundUp_le a.toNat_pos dvd_roundUp
    exact Nat.le_trans h (le_roundUp a.toNat_pos)
  have hsome : (checkedAlignUp v a.bytes).isSome :=
    isSome_checkedAlignUp.2 (Nat.lt_of_le_of_lt hle s.toNat_lt)
  obtain ⟨r, hr⟩ := Option.isSome_iff_exists.1 hsome
  refine ⟨r, hr, ?_⟩
  rw [UInt64.le_iff_toNat_le, checkedAlignUp_eq_some.1 hr]
  exact hle

theorem aligned_of_dvd (h : a.bytes.toNat ∣ r.toNat) :
    alignDown r a.bytes = r ∧ checkedAlignUp r a.bytes = some r ∧ alignUp r a.bytes = r := by
  have hup : roundUp r.toNat a.bytes.toNat = r.toNat := roundUp_eq a.toNat_pos h
  refine ⟨?_, ?_, ?_⟩
  · rw [← UInt64.toNat_inj, toNat_alignDown, roundDown_eq h]
  · rw [checkedAlignUp_eq_some, hup]
  · rw [← UInt64.toNat_inj, toNat_alignUp, hup, Nat.mod_eq_of_lt r.toNat_lt]

/-- What was rounded to a multiple of `a`, down or up, is a multiple of every smaller power. -/
theorem dvd_of_rounded (h : r = alignDown v a.bytes ∨ checkedAlignUp v a.bytes = some r)
    (hb : b.bytes ≤ a.bytes) : b.bytes.toNat ∣ r.toNat := by
  apply Nat.dvd_trans (Alignment.dvd_of_le hb)
  obtain rfl | hup := h
  · rw [toNat_alignDown]
    exact dvd_roundDown
  · rw [checkedAlignUp_eq_some.1 hup]
    exact dvd_roundUp

/-- Rounding down by the mask answers the greatest multiple, and rounding up the least, by the
remainder where that leaves the range. The checked form answers it exactly within the range. -/
theorem masking_rounds (v a : Word) (ha : a.toNat.isPowerOfTwo) :
    IsGreatest {m : Nat | a.toNat ∣ m ∧ m ≤ v.toNat} (alignDown v a).toNat ∧
      (∃ up : Nat, IsLeast {m : Nat | a.toNat ∣ m ∧ v.toNat ≤ m} up ∧
        (∀ r, checkedAlignUp v a = some r ↔ r.toNat = up) ∧
        ((checkedAlignUp v a).isSome ↔ up < 2 ^ 64) ∧
        (checkedAlignUp v a = none ↔ 2 ^ 64 ≤ up) ∧
        (alignUp v a).toNat = up % 2 ^ 64) ∧
      (∀ w, v ≤ w → alignDown v a ≤ alignDown w a ∧
        ∀ s, checkedAlignUp w a = some s → ∃ r, checkedAlignUp v a = some r ∧ r ≤ s) ∧
      ∀ r, r = alignDown v a ∨ checkedAlignUp v a = some r →
        ∀ b : Word, b.toNat.isPowerOfTwo → b ≤ a →
          alignDown r b = r ∧ checkedAlignUp r b = some r ∧ alignUp r b = r := by
  obtain ⟨a, rfl⟩ : ∃ align : Alignment, align.bytes = a := ⟨⟨a, ha⟩, rfl⟩
  refine ⟨?_, ⟨roundUp v.toNat a.bytes.toNat, isLeast_roundUp a.toNat_pos, ?_, ?_, ?_, ?_⟩, ?_, ?_⟩
  · rw [toNat_alignDown]
    exact isGreatest_roundDown
  · intro r
    exact checkedAlignUp_eq_some
  · exact isSome_checkedAlignUp
  · exact checkedAlignUp_eq_none
  · exact toNat_alignUp v a
  · intro w hw
    refine ⟨alignDown_mono hw, ?_⟩
    intro s hs
    exact checkedAlignUp_mono hw hs
  · intro r hr b hb hle
    obtain ⟨b, rfl⟩ : ∃ align : Alignment, align.bytes = b := ⟨⟨b, hb⟩, rfl⟩
    exact aligned_of_dvd (dvd_of_rounded hr hle)

theorem masking_rounds_last_word :
    (4 : Word).toNat.isPowerOfTwo ∧ (2 : Word).toNat.isPowerOfTwo ∧ (2 : Word) ≤ 4 ∧
      alignDown maxValue 4 = 0xFFFFFFFFFFFFFFFC ∧
      checkedAlignUp maxValue 4 = none ∧ alignUp maxValue 4 = 0 ∧
      IsGreatest {m : Nat | 4 ∣ m ∧ m ≤ 2 ^ 64 - 1} (alignDown maxValue 4).toNat ∧
      checkedAlignUp 0xFFFFFFFFFFFFFFFC 2 = some 0xFFFFFFFFFFFFFFFC := by
  have hfour : (4 : Word).toNat.isPowerOfTwo := ⟨2, rfl⟩
  have htwo : (2 : Word).toNat.isPowerOfTwo := ⟨1, rfl⟩
  obtain ⟨hdown, -, -, hkept⟩ := masking_rounds maxValue 4 hfour
  exact ⟨hfour, htwo, by decide, by decide, by decide, by decide, hdown,
    (hkept _ (.inl rfl) 2 htwo (by decide)).2.1⟩

end Word

end ArenaMemory
