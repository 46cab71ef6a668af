import ArenaMemory.Region.Chunk
import ArenaMemory.Proofs.Allocator.Grant
import ArenaMemory.Proofs.Rounding

namespace ArenaMemory

namespace Chunk

variable {chunk : Chunk} {minAlign align : Alignment} {layout : Layout} {addr usable : Word}

def grant (chunk : Chunk) : Grant := ⟨chunk.start, chunk.layout⟩

theorem cut_eq_some {start stop need : Word} (h : start.toNat ≤ stop.toNat) :
    (if stop - start < need then none else some (stop - need)) = some addr ↔
      start.toNat + need.toNat ≤ stop.toNat ∧ addr.toNat = stop.toNat - need.toNat := by
  have hsub := UInt64.toNat_sub_of_le stop start (UInt64.le_iff_toNat_le.2 h)
  split
  next hlt =>
    rw [UInt64.lt_iff_toNat_lt, hsub] at hlt
    simp only [reduceCtorEq, false_iff]
    omega
  next hge =>
    rw [UInt64.lt_iff_toNat_lt, hsub] at hge
    have hneed := UInt64.toNat_sub_of_le stop need (UInt64.le_iff_toNat_le.2 (by omega))
    rw [Option.some.injEq, ← UInt64.toNat_inj, hneed]
    omega

/-- The rounded size of a request, and where it has to end, over the natural numbers. Neither branch
of the carving wraps. -/
theorem carve?_eq_some (hstart : chunk.start.toNat ≤ chunk.bump.toNat)
    (hbump : minAlign.bytes.toNat ∣ chunk.bump.toNat) :
    chunk.carve? minAlign layout = some addr ↔
      chunk.start.toNat + roundUp layout.size.toNat (layout.align.strictest minAlign).bytes.toNat ≤
        roundDown chunk.bump.toNat (layout.align.strictest minAlign).bytes.toNat ∧
      addr.toNat = roundDown chunk.bump.toNat (layout.align.strictest minAlign).bytes.toNat -
        roundUp layout.size.toNat (layout.align.strictest minAlign).bytes.toNat := by
  have hb := chunk.bump.toNat_lt
  rw [carve?, Alignment.strictest]
  split
  next hle =>
    rw [roundDown_eq hbump]
    cases hneed : Word.checkedAlignUp layout.size minAlign.bytes with
    | none =>
      have hover := Word.checkedAlignUp_eq_none.1 hneed
      simp only [reduceCtorEq, false_iff]
      omega
    | some need =>
      rw [← Word.checkedAlignUp_eq_some.1 hneed]
      exact cut_eq_some hstart
  next hle =>
    have hstop := Word.toNat_alignDown chunk.bump layout.align
    have hdown := roundDown_le (n := chunk.bump.toNat) (a := layout.align.bytes.toNat)
    cases hneed : Word.checkedAlignUp layout.size layout.align.bytes with
    | none =>
      have hover := Word.checkedAlignUp_eq_none.1 hneed
      simp only [reduceCtorEq, false_iff]
      omega
    | some need =>
      rw [← Word.checkedAlignUp_eq_some.1 hneed, ← hstop]
      dsimp only
      split
      next hlt =>
        rw [UInt64.lt_iff_toNat_lt] at hlt
        simp only [reduceCtorEq, false_iff]
        omega
      next hge =>
        rw [UInt64.lt_iff_toNat_lt] at hge
        exact cut_eq_some (Nat.le_of_not_lt hge)

theorem carve?_sentinel (anchor : Word) (hpos : 0 < layout.size.toNat) :
    (sentinel anchor).carve? minAlign layout = none := by
  rw [Option.eq_none_iff_forall_ne_some]
  intro addr haddr
  rw [carve?] at haddr
  split at haddr
  · cases hneed : Word.checkedAlignUp layout.size minAlign.bytes with
    | none => simp [hneed] at haddr
    | some need =>
      have hn := roundUp_pos minAlign.toNat_pos hpos
      rw [← Word.checkedAlignUp_eq_some.1 hneed] at hn
      rw [hneed] at haddr
      obtain ⟨hroom, -⟩ := (cut_eq_some (Nat.le_refl anchor.toNat)).1 haddr
      omega
  · cases hneed : Word.checkedAlignUp layout.size layout.align.bytes with
    | none => simp [hneed] at haddr
    | some need =>
      have hn := roundUp_pos layout.align.toNat_pos hpos
      rw [← Word.checkedAlignUp_eq_some.1 hneed] at hn
      have hdown := roundDown_le (n := anchor.toNat) (a := layout.align.bytes.toNat)
      rw [← Word.toNat_alignDown] at hdown
      simp only [hneed] at haddr
      split at haddr
      · cases haddr
      next hge =>
        rw [UInt64.lt_iff_toNat_lt] at hge
        obtain ⟨hroom, -⟩ := (cut_eq_some (Nat.le_of_not_lt hge)).1 haddr
        simp only [sentinel] at hroom
        omega

/-- A plan rounds the usable bytes to the chunk alignment and the whole, footer included, to the
alignment asked for; there is one whenever both fit. -/
theorem plan?_eq_some {usable' : Word} : plan? usable align = some (usable', layout) ↔
    usable'.toNat = roundUp usable.toNat 16 ∧ layout.align = align ∧
      layout.size.toNat = roundUp (usable'.toNat + 48) align.bytes.toNat := by
  have hsixteen : chunkAlign.bytes.toNat = 16 := rfl
  have hfooter : footerSize.toNat = 48 := rfl
  rw [plan?]
  simp only [Option.bind_eq_bind, Option.bind_eq_some_iff, Option.some.injEq, Prod.mk.injEq,
    Word.checkedAlignUp_eq_some, Word.checkedAdd_eq_some, hsixteen, hfooter]
  constructor
  · rintro ⟨_, hu, total, ht, size, hs, rfl, rfl⟩
    exact ⟨hu, rfl, by rw [hs, ht]⟩
  · rintro ⟨hu, rfl, hs⟩
    have hle := le_roundUp (n := usable'.toNat + 48) layout.align.toNat_pos
    have hlt := layout.size.toNat_lt
    have htotal : (usable' + footerSize).toNat = usable'.toNat + 48 :=
      Word.toNat_add_of_lt (by omega)
    exact ⟨usable', hu, usable' + footerSize, htotal, layout.size, by rw [htotal, hs], rfl, rfl⟩

structure Valid (minAlign : Alignment) (chunk : Chunk) : Prop where
  chunkAlign_le : chunkAlign.bytes ≤ chunk.layout.align.bytes
  start_aligned : chunk.layout.align.bytes.toNat ∣ chunk.start.toNat
  usable_pos : 0 < chunk.usable.toNat
  usable_aligned : 16 ∣ chunk.usable.toNat
  size_eq : chunk.layout.size.toNat =
    roundUp (chunk.usable.toNat + 48) chunk.layout.align.bytes.toNat
  bounded : chunk.start.toNat + chunk.layout.size.toNat ≤ 2 ^ 64
  start_le_bump : chunk.start.toNat ≤ chunk.bump.toNat
  bump_le_footer : chunk.bump.toNat ≤ chunk.start.toNat + chunk.usable.toNat
  bump_aligned : minAlign.bytes.toNat ∣ chunk.bump.toNat

namespace Valid

variable (valid : chunk.Valid minAlign)
include valid

theorem footer_within : chunk.start.toNat + chunk.usable.toNat + 48 ≤ chunk.grant.stop := by
  have hle := le_roundUp (n := chunk.usable.toNat + 48) chunk.layout.align.toNat_pos
  have hsize := valid.size_eq
  simp only [Grant.stop, grant]
  omega

theorem toNat_footer : chunk.footer.toNat = chunk.start.toNat + chunk.usable.toNat := by
  have hfoot := valid.footer_within
  have hbounded := valid.bounded
  simp only [Grant.stop, grant] at hfoot
  exact Word.toNat_add_of_lt (by omega)

theorem within {g : Grant} (hstart : chunk.start.toNat ≤ g.start)
    (hstop : g.stop ≤ chunk.footer.toNat) :
    chunk.grant.start ≤ g.start ∧ g.stop ≤ chunk.grant.stop := by
  have hfoot := valid.footer_within
  rw [valid.toNat_footer] at hstop
  exact ⟨hstart, by omega⟩

theorem start_dvd : 16 ∣ chunk.start.toNat :=
  (Alignment.dvd_of_le valid.chunkAlign_le).trans valid.start_aligned

theorem footer_dvd : 16 ∣ chunk.footer.toNat := by
  rw [valid.toNat_footer]
  exact (Nat.dvd_add_right valid.start_dvd).2 valid.usable_aligned

theorem toNat_rewind (hmin : minAlign.bytes ≤ chunkAlign.bytes) :
    (chunk.rewind minAlign).bump.toNat = chunk.start.toNat + chunk.usable.toNat := by
  rw [rewind, Word.toNat_alignDown, ← valid.toNat_footer]
  exact roundDown_eq ((Alignment.dvd_of_le hmin).trans valid.footer_dvd)

theorem rewind (hmin : minAlign.bytes ≤ chunkAlign.bytes) :
    (chunk.rewind minAlign).Valid minAlign :=
  { valid with
    start_le_bump := by
      rw [valid.toNat_rewind hmin]
      exact Nat.le_add_right _ _
    bump_le_footer := Nat.le_of_eq (valid.toNat_rewind hmin)
    bump_aligned := by
      rw [valid.toNat_rewind hmin, ← valid.toNat_footer]
      exact (Alignment.dvd_of_le hmin).trans valid.footer_dvd }

theorem carve (hpos : 0 < layout.size.toNat) (h : chunk.carve? minAlign layout = some addr) :
    ({ chunk with bump := addr } : Chunk).Valid minAlign ∧
      addr.toNat + layout.size.toNat ≤ chunk.bump.toNat ∧
      layout.align.bytes.toNat ∣ addr.toNat ∧ minAlign.bytes.toNat ∣ addr.toNat := by
  obtain ⟨hroom, haddr⟩ := (carve?_eq_some valid.start_le_bump valid.bump_aligned).1 h
  have hA := (layout.align.strictest minAlign).toNat_pos
  have hdvd : (layout.align.strictest minAlign).bytes.toNat ∣ addr.toNat :=
    haddr ▸ Nat.dvd_sub dvd_roundDown dvd_roundUp
  have hmin := (Alignment.dvd_of_le (layout.align.le_strictest_right minAlign)).trans hdvd
  have hup := le_roundUp (n := layout.size.toNat) hA
  have hdown := roundDown_le (n := chunk.bump.toNat)
    (a := (layout.align.strictest minAlign).bytes.toNat)
  have hfoot := valid.bump_le_footer
  exact ⟨{ valid with
      start_le_bump := by dsimp only; omega
      bump_le_footer := by dsimp only; omega
      bump_aligned := hmin }, by omega,
    (Alignment.dvd_of_le (layout.align.le_strictest_left minAlign)).trans hdvd, hmin⟩

end Valid

end Chunk

end ArenaMemory
