import ArenaMemory.Allocator.Platform
import ArenaMemory.Proofs.Allocator.Alike

namespace ArenaMemory

namespace Window

variable {window : Window} {layout : Layout} {offset : Word}

theorem place?_congr {window' : Window} (hcap : window.cap = window'.cap)
    (hcursor : window.cursor = window'.cursor) : window.place? layout = window'.place? layout := by
  unfold place?
  rw [hcap, hcursor]

theorem toNat_base : base.toNat = 2 ^ 36 := rfl

theorem dvd_base {align : Alignment} (h : ¬ base < align.bytes) :
    align.bytes.toNat ∣ base.toNat := by
  obtain ⟨k, -, hk⟩ := align.exists_exponent
  rw [UInt64.lt_iff_toNat_lt, toNat_base, hk, Nat.not_lt, Nat.pow_le_pow_iff_right (by decide)] at h
  rw [toNat_base, hk]
  exact Nat.pow_dvd_pow 2 h

theorem toNat_alignUp {align : Alignment} (hcursor : window.cursor.toNat ≤ 2 ^ 62)
    (h : ¬ base < align.bytes) :
    (Word.alignUp window.cursor align.bytes).toNat =
      roundUp window.cursor.toNat align.bytes.toNat := by
  have hle : roundUp window.cursor.toNat align.bytes.toNat ≤
      window.cursor.toNat + (align.bytes.toNat - 1) := roundDown_le
  rw [UInt64.lt_iff_toNat_lt, toNat_base] at h
  rw [Word.toNat_alignUp, Nat.mod_eq_of_lt (by omega)]

theorem place?_eq_some (hcursor : window.cursor.toNat ≤ 2 ^ 62) (hcap : window.cap.toNat ≤ 2 ^ 62)
    (h : window.place? layout = some offset) :
    window.cursor.toNat ≤ offset.toNat ∧ layout.align.bytes.toNat ∣ offset.toNat ∧
      layout.align.bytes.toNat ∣ base.toNat ∧
      (offset + layout.size).toNat = offset.toNat + layout.size.toNat ∧
      offset.toNat + layout.size.toNat ≤ window.cap.toNat := by
  unfold place? at h
  dsimp only at h
  split at h
  · cases h
  next hserved =>
    have hup := toNat_alignUp hcursor hserved
    have hle := le_roundUp (n := window.cursor.toNat) layout.align.toNat_pos
    cases hs : Word.checkedAdd (Word.alignUp window.cursor layout.align.bytes) layout.size with
    | none => simp [hs] at h
    | some stop =>
      simp only [hs] at h
      rw [Word.checkedAdd_eq_some] at hs
      split at h
      · cases h
      next hfits =>
        obtain rfl := Option.some.inj h
        rw [UInt64.lt_iff_toNat_lt] at hfits
        have hdvd : layout.align.bytes.toNat ∣
            (Word.alignUp window.cursor layout.align.bytes).toNat :=
          hup ▸ dvd_roundUp
        exact ⟨by omega, hdvd, dvd_base hserved, Word.toNat_add_of_lt (by omega), by omega⟩

structure Holds (out : Multiset Grant) (window : Window) : Prop where
  cap_le : window.cap.toNat ≤ 2 ^ 62
  cursor_le : window.cursor.toNat ≤ 2 ^ 62
  below : ∀ g ∈ out, 0 < g.layout.size.toNat →
    base.toNat ≤ g.start ∧ g.stop ≤ base.toNat + window.cursor.toNat

variable {out : Multiset Grant} {window' : Window} {result : Option Word}
  {call : Option Word → WindowCall}

theorem Holds.of_cursor (h : Holds out window) (hcap : window'.cap = window.cap)
    (hcursor : window'.cursor = window.cursor) : Holds out window' :=
  ⟨hcap ▸ h.cap_le, hcursor ▸ h.cursor_le, hcursor ▸ h.below⟩

theorem Holds.mono {less : Multiset Grant} (h : Holds out window) (hsub : less ⊆ out) :
    Holds less window :=
  ⟨h.cap_le, h.cursor_le, fun g hg => h.below g (hsub hg)⟩

theorem serve_holds (h : Holds out window) (hs : window.serve layout call = (result, window')) :
    Holds (granted result layout + out) window' := by
  rw [serve] at hs
  cases hp : window.place? layout with
  | none =>
    simp only [hp, Prod.mk.injEq] at hs
    obtain ⟨rfl, rfl⟩ := hs
    rw [granted_none, zero_add]
    exact h.of_cursor rfl rfl
  | some offset =>
    simp only [hp, Prod.mk.injEq] at hs
    obtain ⟨rfl, rfl⟩ := hs
    obtain ⟨hle, -, -, hstop, hfits⟩ := place?_eq_some h.cursor_le h.cap_le hp
    have hcap := h.cap_le
    have haddr : (base + offset).toNat = base.toNat + offset.toNat :=
      Word.toNat_add_of_lt (by rw [toNat_base]; omega)
    refine ⟨hcap, by dsimp only; omega, fun g hg hpos => ?_⟩
    rw [granted_some, Multiset.singleton_add] at hg
    obtain rfl | hold := Multiset.mem_cons.1 hg
    · simp only [Grant.start, Grant.stop, haddr, hstop]
      omega
    · have hbelow := h.below g hold hpos
      dsimp only
      omega

theorem serve_fresh {addr : Word} (h : Holds out window) (hpos : 0 < layout.size.toNat)
    (hs : window.serve layout call = (some addr, window')) : Grant.Fresh out ⟨addr, layout⟩ := by
  rw [serve] at hs
  cases hp : window.place? layout with
  | none => simp [hp] at hs
  | some offset =>
    simp only [hp, Prod.mk.injEq, Option.some.injEq] at hs
    obtain ⟨rfl, -⟩ := hs
    obtain ⟨hle, hoffset, hbase, -, hfits⟩ := place?_eq_some h.cursor_le h.cap_le hp
    have hcap := h.cap_le
    have hwindow := toNat_base
    have haddr : (base + offset).toNat = base.toNat + offset.toNat :=
      Word.toNat_add_of_lt (by omega)
    refine ⟨fun hzero => ?_, ?_, ?_, fun other ho => ?_⟩
    · rw [show base + offset = 0 from hzero, UInt64.toNat_zero] at haddr
      omega
    · rw [Grant.start, haddr]
      exact Nat.dvd_add hbase hoffset
    · simp only [Grant.stop, haddr]
      omega
    · obtain hzero | hother := Nat.eq_zero_or_pos other.layout.size.toNat
      · exact (Grant.apart_of_empty hzero).symm
      · refine .inr (.inl ?_)
        have hbelow := h.below other ho hother
        rw [Grant.start, haddr]
        omega

end Window

namespace Platform

/-- The window without native operations keeps the contract. -/
def plainWindowContract : plainWindow.Contract where
  holds out platform := platform.window.Holds out
  alloc h ha := by
    obtain ⟨rfl, rfl⟩ := Prod.mk.inj ha
    exact Window.serve_holds h rfl
  release h := (h.mono (Multiset.subset_of_le (Multiset.le_add_left _ _))).of_cursor rfl rfl
  nativeRealloc hnative := by cases hnative
  nativeZalloc hnative := by cases hnative
  alloc_fresh h hpos ha :=
    Window.serve_fresh h hpos (Prod.ext (Prod.mk.inj ha).1 rfl)
  realloc_fresh hnative := by cases hnative
  zalloc_fresh hnative := by cases hnative
  alloc_keeps _ ha := by
    obtain ⟨-, rfl⟩ := Prod.mk.inj ha
    exact .refl _ _
  release_keeps _ := .refl _ _
  realloc_keeps hnative := by cases hnative
  realloc_refused hnative := by cases hnative
  realloc_moves hnative := by cases hnative
  zalloc_keeps hnative := by cases hnative
  zalloc_zeroes hnative := by cases hnative

def SameRoom (platform platform' : Platform) : Prop :=
  platform.window.cap = platform'.window.cap ∧ platform.window.cursor = platform'.window.cursor ∧
    platform.heap = platform'.heap

theorem sameRoom_equivalence : Equivalence SameRoom where
  refl _ := ⟨rfl, rfl, rfl⟩
  symm h := ⟨h.1.symm, h.2.1.symm, h.2.2.symm⟩
  trans h h' := ⟨h.1.trans h'.1, h.2.1.trans h'.2.1, h.2.2.trans h'.2.2⟩

theorem windowAlloc_alike (call call' : Layout → Option Word → WindowCall) (layout : Layout)
    {machine machine' : Machine Platform} (hm : machine.Alike SameRoom machine') :
    Paired (Machine.Alike SameRoom) (windowAlloc call layout machine)
      (windowAlloc call' layout machine') := by
  obtain ⟨hcap, hcursor, hheap⟩ := hm.store
  have hplace : machine.store.window.place? layout = machine'.store.window.place? layout :=
    Window.place?_congr hcap hcursor
  unfold windowAlloc Window.serve
  rw [← hplace]
  cases machine.store.window.place? layout with
  | none => exact .intro none ⟨hm.memory_eq, hcap, hcursor, hheap⟩
  | some start => exact .intro _ ⟨hm.memory_eq, hcap, rfl, hheap⟩

/-- The native operations of the window take the room that the handle would take. -/
theorem fullWindow_alike : fullWindow.Alike SameRoom fullWindow.composed := by
  constructor
  · intro layout machine machine' hm
    exact windowAlloc_alike .alloc .alloc layout hm
  · intro addr layout machine machine' hm
    exact ⟨hm.memory_eq, hm.store⟩
  · intro layout machine machine' hpos hm
    have hserved := windowAlloc_alike .zalloc .alloc layout hm
    unfold Allocator.zalloc Allocator.composed fullWindow plainWindow windowZalloc
    dsimp only
    obtain ⟨result, _, _, ha, hb, hm⟩ := hserved.exists_eq
    rw [ha, hb]
    cases result with
    | none => exact .intro none hm
    | some addr => exact .intro (some addr) (hm.mapMemory _)
  · intro addr old new machine machine' hold hnew hm
    have hne : new.size ≠ 0 := fun he => by simp [he] at hnew
    have hserved := windowAlloc_alike (fun _ => .realloc (addr - Window.base) old new) .alloc new hm
    simp only [Allocator.realloc, Allocator.composed, fullWindow, plainWindow, windowRealloc,
      if_neg hne]
    obtain ⟨result, _, _, ha, hb, hm⟩ := hserved.exists_eq
    rw [ha, hb]
    cases result with
    | none => exact .intro none hm
    | some fresh =>
      have hcopied := hm.mapMemory (·.copy addr fresh (min old.size new.size).toNat)
      exact .intro (some fresh) ⟨hcopied.memory_eq, hm.store⟩

end Platform

end ArenaMemory
