import Mathlib.Order.Interval.Finset.Nat
import ArenaMemory.Allocator.Tracker
import ArenaMemory.Proofs.Allocator.Contract

namespace ArenaMemory

variable {σ : Type}

def bytesOut (out : Multiset Grant) : Nat := (out.map fun g => g.layout.size.toNat).sum

@[simp]
theorem bytesOut_add (out out' : Multiset Grant) :
    bytesOut (out + out') = bytesOut out + bytesOut out' := by
  simp [bytesOut]

@[simp]
theorem bytesOut_singleton (g : Grant) : bytesOut {g} = g.layout.size.toNat := by
  simp [bytesOut]

/-- No two of the blocks have a byte in common. -/
def Separate (out : Multiset Grant) : Prop := ∀ g ∈ out, ∀ h ∈ out.erase g, g.Apart h

section Separate

variable {out out' : Multiset Grant} {g : Grant}

theorem Separate.mono (h : Separate out) (hle : out' ≤ out) : Separate out' := fun k hk l hl =>
  h k (Multiset.mem_of_le hle hk) l (Multiset.mem_of_le (Multiset.erase_le_erase k hle) hl)

theorem separate_cons : Separate (g ::ₘ out) ↔ (∀ k ∈ out, g.Apart k) ∧ Separate out := by
  constructor
  · intro h
    refine ⟨fun k hk => ?_, h.mono (Multiset.le_cons_self out g)⟩
    exact h g (Multiset.mem_cons_self g out) k (by rwa [Multiset.erase_cons_head])
  · rintro ⟨hapart, h⟩ k hk l hl
    by_cases hkg : k = g
    · subst hkg
      rw [Multiset.erase_cons_head] at hl
      exact hapart l hl
    · have hk' := (Multiset.mem_cons.1 hk).resolve_left hkg
      rw [Multiset.erase_cons_tail _ (Ne.symm hkg)] at hl
      obtain rfl | hl := Multiset.mem_cons.1 hl
      · exact (hapart k hk').symm
      · exact h k hk' l hl

theorem separate_add : Separate (out + out') ↔
    Separate out ∧ Separate out' ∧ ∀ g ∈ out, ∀ h ∈ out', g.Apart h := by
  induction out using Multiset.induction_on with
  | empty => simp [Separate]
  | cons g out ih =>
    rw [Multiset.cons_add, separate_cons, separate_cons, ih]
    simp only [Multiset.mem_add, Multiset.mem_cons]
    constructor
    · rintro ⟨hg, hout, hout', hacross⟩
      refine ⟨⟨fun k hk => hg k (.inl hk), hout⟩, hout', ?_⟩
      rintro k (rfl | hk) l hl
      · exact hg l (.inr hl)
      · exact hacross k hk l hl
    · rintro ⟨⟨hg, hout⟩, hout', hacross⟩
      refine ⟨?_, hout, hout', fun k hk => hacross k (.inr hk)⟩
      rintro k (hk | hk)
      · exact hg k hk
      · exact hacross g (.inl rfl) k hk

theorem separate_coe {blocks : List Grant} (h : blocks.Pairwise Grant.Apart) :
    Separate (blocks : Multiset Grant) := by
  induction h with
  | nil => simp [Separate]
  | cons hg _ ih => exact separate_cons.2 ⟨hg, ih⟩

end Separate

/-- The grants lie side by side in the address range, above address zero. -/
structure Packed (out : Multiset Grant) : Prop where
  within : ∀ g ∈ out, 0 < g.layout.size.toNat → 0 < g.start ∧ g.stop ≤ 2 ^ 64
  separate : Separate out

namespace Packed

variable {out : Multiset Grant} {g : Grant}

theorem zero : Packed 0 := ⟨by simp, by simp [Separate]⟩

theorem mono {out' : Multiset Grant} (h : Packed out) (hle : out' ≤ out) : Packed out' where
  within k hk := h.within k (Multiset.mem_of_le hle hk)
  separate := h.separate.mono hle

theorem tail (h : Packed ({g} + out)) : Packed out := h.mono (Multiset.le_add_left out {g})

theorem head (h : Packed ({g} + out)) : ∀ k ∈ out, g.Apart k :=
  (separate_cons.1 h.separate).1

theorem cons (h : Packed out) (hg : 0 < g.layout.size.toNat → Grant.Fresh out g) :
    Packed ({g} + out) := by
  have hapart : ∀ k ∈ out, g.Apart k := fun k hk => by
    obtain hzero | hpos := Nat.eq_zero_or_pos g.layout.size.toNat
    · exact Grant.apart_of_empty hzero
    · exact (hg hpos).apart k hk
  rw [Multiset.singleton_add]
  refine ⟨fun k hk hpos => ?_, separate_cons.2 ⟨hapart, h.separate⟩⟩
  obtain rfl | hk := Multiset.mem_cons.1 hk
  · have hne : k.addr.toNat ≠ 0 := fun he => (hg hpos).addr_ne_zero (UInt64.toNat_inj.1 he)
    exact ⟨Nat.pos_of_ne_zero hne, (hg hpos).bounded⟩
  · exact h.within k hk hpos

theorem granted {result : Option Word} {layout : Layout} (h : Packed out)
    (hf : ∀ addr, result = some addr → 0 < layout.size.toNat → Grant.Fresh out ⟨addr, layout⟩) :
    Packed (granted result layout + out) := by
  cases result with
  | none =>
    rw [granted_none, zero_add]
    exact h
  | some addr => exact h.cons (hf addr rfl)

theorem exists_addresses (h : Packed out) :
    ∃ addresses : Finset Nat, addresses ⊆ Finset.Ico 1 (2 ^ 64) ∧ addresses.card = bytesOut out ∧
    ∀ n ∈ addresses, ∃ g ∈ out, g.start ≤ n ∧ n < g.stop := by
  induction out using Multiset.induction_on with
  | empty => exact ⟨∅, by simp, rfl, by simp⟩
  | cons g out ih =>
    rw [← Multiset.singleton_add] at h
    obtain ⟨addresses, hsub, hcard, hin⟩ := ih h.tail
    have hdisjoint : Disjoint (Finset.Ico g.start g.stop) addresses := by
      rw [Finset.disjoint_left]
      intro n hn hmem
      obtain ⟨k, hk, hstart, hstop⟩ := hin n hmem
      obtain ⟨hge, hlt⟩ := Finset.mem_Ico.1 hn
      have hapart := h.head k hk
      rw [Grant.Apart] at hapart
      omega
    refine ⟨Finset.Ico g.start g.stop ∪ addresses, ?_, ?_, ?_⟩
    · refine Finset.union_subset (fun n hn => ?_) hsub
      obtain ⟨hge, hlt⟩ := Finset.mem_Ico.1 hn
      have hpos : 0 < g.layout.size.toNat := by
        rw [Grant.start] at hge
        rw [Grant.stop] at hlt
        omega
      obtain ⟨hstart, hstop⟩ :=
        h.within g (Multiset.mem_add.2 (.inl (Multiset.mem_singleton_self g))) hpos
      exact Finset.mem_Ico.2 ⟨by omega, by omega⟩
    · rw [Finset.card_union_of_disjoint hdisjoint, hcard, Nat.card_Ico, ← Multiset.singleton_add,
        bytesOut_add, bytesOut_singleton, Grant.stop, Grant.start, Nat.add_sub_cancel_left]
    · intro n hn
      obtain hn | hn := Finset.mem_union.1 hn
      · exact ⟨g, Multiset.mem_cons_self g out, Finset.mem_Ico.1 hn⟩
      · obtain ⟨k, hk, hkn⟩ := hin n hn
        exact ⟨k, Multiset.mem_cons_of_mem hk, hkn⟩

theorem bytesOut_lt (h : Packed out) : bytesOut out < 2 ^ 64 := by
  obtain ⟨addresses, hsub, hcard, -⟩ := h.exists_addresses
  have hle := Finset.card_le_card hsub
  rw [Nat.card_Ico, hcard] at hle
  omega

end Packed

def Allocator.accounted (inner : Allocator σ) : Allocator (Tracker × σ) :=
  (inner.within Prod.snd fun store outer => (outer.1, store)).tracked (fun store => some store.1)
    fun tracker store => (tracker, store.2)

namespace Allocator

def noted (tracker : Tracker) (layout : Layout) : Option Word → Tracker
  | none => tracker.recordRefused
  | some _ => tracker.recordServed layout.size

/-- How a request ends at the tracker: it is refused by the budget, or answered from behind. -/
inductive Accounted (request : Machine σ → Option Word × Machine σ) (layout : Layout)
    (machine : Machine (Tracker × σ)) : Option Word × Machine (Tracker × σ) → Prop where
  | refused : machine.store.1.fits layout.size = false → Accounted request layout machine
      (none, ⟨machine.memory,
        .budgetRefused layout.size machine.store.1.budget :: machine.trace,
        machine.store.1.recordRefused, machine.store.2⟩)
  | answered {result served} : request (machine.withStore machine.store.2) = (result, served) →
      machine.store.1.fits layout.size = true →
      Accounted request layout machine
        (result, served.withStore (noted machine.store.1 layout result, served.store))

variable {inner : Allocator σ} {layout : Layout} {machine : Machine (Tracker × σ)}

theorem zoom_eq {τ α : Type} {part : σ → τ} {put : τ → σ → σ} {machine : Machine σ}
    {action : Machine τ → α × Machine τ} {result : α} {served : Machine τ}
    (h : action (machine.withStore (part machine.store)) = (result, served)) :
    machine.zoom part put action = (result, served.withStore (put served.store machine.store)) := by
  rw [Machine.zoom, h]

theorem exists_of_zoom {τ α : Type} {part : σ → τ} {put : τ → σ → σ} {machine machine' : Machine σ}
    {action : Machine τ → α × Machine τ} {result : α}
    (h : machine.zoom part put action = (result, machine')) :
    ∃ served, action (machine.withStore (part machine.store)) = (result, served) ∧
      machine' = served.withStore (put served.store machine.store) := by
  rcases ha : action (machine.withStore (part machine.store)) with ⟨answer, served⟩
  rw [zoom_eq ha] at h
  obtain ⟨rfl, rfl⟩ := Prod.mk.inj h
  exact ⟨served, rfl, rfl⟩

theorem accounted_serve (request : Machine σ → Option Word × Machine σ) (layout : Layout)
    (machine : Machine (Tracker × σ)) :
    Accounted request layout machine
      (tracked.serve (fun store => some store.1) (fun tracker store => (tracker, store.2))
        (fun _ machine => machine.zoom Prod.snd (fun store outer => (outer.1, store)) request)
        layout machine) := by
  unfold tracked.serve Tracker.request
  rcases hr : request (machine.withStore machine.store.2) with ⟨_ | addr, served⟩
  all_goals
    dsimp only
    rw [zoom_eq hr]
    split
  next hfits => exact .answered hr hfits
  next hfits => exact .refused (Bool.eq_false_iff.2 hfits)
  next hfits => exact .answered hr hfits
  next hfits => exact .refused (Bool.eq_false_iff.2 hfits)

theorem zalloc_within {τ : Type} {inner : Allocator τ} {part : σ → τ} {put : τ → σ → σ}
    {machine : Machine σ} :
    (inner.within part put).zalloc layout machine =
      machine.zoom part put (inner.zalloc layout) := by
  unfold zalloc
  cases hnative : inner.nativeZalloc with
  | some zalloc => simp only [within, hnative, Option.map_some]
  | none =>
    have hcomposed : (inner.within part put).nativeZalloc = none := by
      simp only [within, hnative, Option.map_none]
    rw [hcomposed]
    rcases ha : inner.alloc layout (machine.withStore (part machine.store)) with ⟨_ | addr, served⟩
    all_goals
      have hz : (inner.within part put).alloc layout machine = _ := zoom_eq ha
      rw [hz, Machine.zoom]
      dsimp only
      simp only [ha]
    rfl

variable {result : Option Word} {machine' : Machine (Tracker × σ)}

theorem accounted_alloc (h : inner.accounted.alloc layout machine = (result, machine')) :
    Accounted (inner.alloc layout) layout machine (result, machine') :=
  h ▸ accounted_serve (inner.alloc layout) layout machine

theorem accounted_zalloc
    {zalloc : Layout → Machine (Tracker × σ) → Option Word × Machine (Tracker × σ)}
    (hnative : inner.accounted.nativeZalloc = some zalloc)
    (h : zalloc layout machine = (result, machine')) :
    Accounted (inner.zalloc layout) layout machine (result, machine') := by
  obtain rfl := Option.some.inj hnative
  have hserve := accounted_serve (inner.zalloc layout) layout machine
  unfold tracked.serve Tracker.request at hserve h
  simp only [zalloc_within] at h
  rw [← h]
  exact hserve

namespace Accounted

variable {request : Machine σ → Option Word × Machine σ}

theorem tracker_eq (h : Accounted request layout machine (result, machine')) :
    machine'.store.1 = noted machine.store.1 layout result := by
  cases h with
  | refused | answered => rfl

theorem fits {addr : Word} (h : Accounted request layout machine (some addr, machine')) :
    machine.store.1.fits layout.size = true := by
  cases h with
  | answered _ hfits => exact hfits

end Accounted

structure Counted (out : Multiset Grant) (tracker : Tracker) : Prop where
  packed : Packed out
  outstanding_eq : tracker.stats.outstanding.toNat = bytesOut out

theorem Counted.refused {out : Multiset Grant} {tracker : Tracker} (h : Counted out tracker) :
    Counted (0 + out) tracker.recordRefused := by
  rw [zero_add]
  exact ⟨h.packed, h.outstanding_eq⟩

theorem Counted.noted {out : Multiset Grant} {tracker : Tracker} (h : Counted out tracker)
    (hf : ∀ addr, result = some addr → 0 < layout.size.toNat → Grant.Fresh out ⟨addr, layout⟩) :
    Counted (granted result layout + out) (noted tracker layout result) := by
  cases result with
  | none => exact h.refused
  | some addr =>
    have hpacked : Packed ({⟨addr, layout⟩} + out) := h.packed.cons (hf addr rfl)
    have hlt := hpacked.bytesOut_lt
    rw [bytesOut_add, bytesOut_singleton] at hlt
    dsimp only at hlt
    refine ⟨hpacked, ?_⟩
    rw [granted_some, bytesOut_add, bytesOut_singleton, Allocator.noted, Tracker.recordServed]
    have hsum := Word.toNat_add_of_lt (a := tracker.stats.outstanding) (b := layout.size)
      (by rw [h.outstanding_eq]; omega)
    dsimp only
    rw [hsum, h.outstanding_eq, Nat.add_comm]

theorem Counted.freed {out : Multiset Grant} {tracker : Tracker} {addr : Word}
    (h : Counted ({⟨addr, layout⟩} + out) tracker) :
    Counted out (tracker.recordFreed layout.size) := by
  refine ⟨h.packed.tail, ?_⟩
  have hsum := h.outstanding_eq
  rw [bytesOut_add, bytesOut_singleton] at hsum
  dsimp only at hsum
  have hle : layout.size ≤ tracker.stats.outstanding := UInt64.le_iff_toNat_le.2 (by omega)
  simp only [Tracker.recordFreed, Word.saturatingSub, if_pos hle]
  rw [UInt64.toNat_sub_of_le _ _ hle]
  omega

def Placement.accounted (placement : inner.Placement) : inner.accounted.Placement where
  holds out store := placement.holds out store.2 ∧ Counted out store.1
  alloc := by
    intro out layout machine result machine' ⟨h, hcounted⟩ ha
    cases accounted_alloc ha with
    | refused => exact ⟨by rwa [granted_none, zero_add], hcounted.refused⟩
    | answered hr =>
      exact ⟨placement.alloc h hr,
        hcounted.noted fun addr he hpos => placement.alloc_fresh h hpos (he ▸ hr)⟩
  release := by
    intro out addr layout machine ⟨h, hcounted⟩
    have hreleased : placement.holds out
        (inner.release addr layout (machine.withStore machine.store.2)).store := placement.release h
    exact ⟨hreleased, hcounted.freed⟩
  nativeRealloc hnative := by cases hnative
  nativeZalloc := by
    intro zalloc hnative out layout machine result machine' ⟨h, hcounted⟩ hz
    cases accounted_zalloc hnative hz with
    | refused => exact ⟨by rwa [granted_none, zero_add], hcounted.refused⟩
    | answered hr =>
      exact ⟨placement.toLedger.zalloc h hr,
        hcounted.noted fun addr he hpos => placement.fresh_of_zalloc hpos h (he ▸ hr)⟩
  alloc_fresh := by
    intro out layout machine addr machine' ⟨h, hcounted⟩ hpos ha
    cases accounted_alloc ha with
    | answered hr => exact placement.alloc_fresh h hpos hr
  realloc_fresh hnative := by cases hnative
  zalloc_fresh := by
    intro zalloc hnative out layout machine addr machine' ⟨h, hcounted⟩ hpos hz
    cases accounted_zalloc hnative hz with
    | answered hr => exact placement.fresh_of_zalloc hpos h hr

def Contract.accounted (contract : inner.Contract) : inner.accounted.Contract where
  toPlacement := contract.toPlacement.accounted
  alloc_keeps := by
    intro out layout machine result machine' ⟨h, hcounted⟩ ha
    cases accounted_alloc ha with
    | refused => exact .refl _ _
    | answered hr => exact contract.alloc_keeps h hr
  release_keeps := by
    intro out addr layout machine ⟨h, hcounted⟩
    have hreleased : AgreeOn out machine.memory
        (inner.release addr layout (machine.withStore machine.store.2)).memory :=
      contract.release_keeps h
    exact hreleased
  realloc_keeps hnative := by cases hnative
  realloc_refused hnative := by cases hnative
  realloc_moves hnative := by cases hnative
  zalloc_keeps := by
    intro zalloc hnative out layout machine result machine' ⟨h, hcounted⟩ hz
    cases accounted_zalloc hnative hz with
    | refused => exact .refl _ _
    | answered hr => exact contract.zalloc_agree h hr
  zalloc_zeroes := by
    intro zalloc hnative out layout machine addr machine' ⟨h, hcounted⟩ hpos hz
    cases accounted_zalloc hnative hz with
    | answered hr => exact contract.zero_of_zalloc hpos h hr

end Allocator

end ArenaMemory
