import ArenaMemory.Proofs.Allocator.Accounting

namespace ArenaMemory

variable {σ : Type}

theorem Packed.stop_le {out : Multiset Grant} {g : Grant} (h : Packed out) (hg : g ∈ out) :
    g.stop ≤ 2 ^ 64 := by
  obtain hzero | hpos := Nat.eq_zero_or_pos g.layout.size.toNat
  · rw [Grant.stop, hzero]
    exact Nat.le_of_lt g.addr.toNat_lt
  · exact (h.within g hg hpos).2

namespace Allocator

variable {allocator : Allocator σ} {contract : allocator.Contract} {kept out : Multiset Grant}
  {machine machine' : Machine σ} {layout old new : Layout} {addr : Word} {result : Option Word}
  {g : Grant} {store : σ}

/-- Nothing that is done through the contract touches the blocks: they are apart from the client's,
and each call leaves their bytes. -/
structure Contract.Spares (contract : allocator.Contract) (kept : Multiset Grant) : Prop where
  packed : ∀ {out store}, contract.holds out store → Packed (out + kept)
  alloc : ∀ {out layout machine result machine'}, contract.holds out machine.store →
    allocator.alloc layout machine = (result, machine') →
    AgreeOn kept machine.memory machine'.memory
  release : ∀ {out addr layout machine}, contract.holds ({⟨addr, layout⟩} + out) machine.store →
    AgreeOn kept machine.memory (allocator.release addr layout machine).memory
  nativeRealloc : ∀ {realloc}, allocator.nativeRealloc = some realloc →
    ∀ {out addr old new machine result machine'}, 0 < new.size.toNat →
      contract.holds ({⟨addr, old⟩} + out) machine.store →
      realloc addr old new machine = (result, machine') →
      AgreeOn kept machine.memory machine'.memory
  nativeZalloc : ∀ {zalloc}, allocator.nativeZalloc = some zalloc →
    ∀ {out layout machine result machine'}, contract.holds out machine.store →
      zalloc layout machine = (result, machine') → AgreeOn kept machine.memory machine'.memory

namespace Contract.Spares

variable (spares : contract.Spares kept)
include spares

theorem apart (h : contract.holds ({g} + out) store) : ∀ k ∈ kept, g.Apart k := by
  have hpacked := spares.packed h
  rw [add_assoc] at hpacked
  exact fun k hk => hpacked.head k (Multiset.mem_add.2 (.inr hk))

theorem stop_le (h : contract.holds ({g} + out) store) : g.stop ≤ 2 ^ 64 :=
  (spares.packed h).stop_le (Multiset.mem_add.2 (.inl (Multiset.mem_add.2
    (.inl (Multiset.mem_singleton_self g)))))

theorem fresh (h : contract.holds ({g} + out) store) (hf : Grant.Fresh out g) :
    Grant.Fresh (out + kept) g :=
  { hf with
    apart := fun k hk => (Multiset.mem_add.1 hk).elim (hf.apart k) (spares.apart h k) }

theorem write {memory : Memory} {bytes : List UInt8} (h : contract.holds ({g} + out) store)
    (hlen : bytes.length ≤ g.layout.size.toNat) :
    AgreeOn kept memory (memory.write g.addr bytes) :=
  .write (spares.stop_le h) (spares.apart h) hlen

theorem zalloc (h : contract.holds out machine.store)
    (hz : allocator.zalloc layout machine = (result, machine')) :
    AgreeOn kept machine.memory machine'.memory := by
  have hzeroing := hz ▸ zeroing allocator layout machine
  cases hzeroing with
  | native hnative hn => exact spares.nativeZalloc hnative h hn
  | refused ha => exact spares.alloc h ha
  | @cleared addr _ ha =>
    have hfresh : 0 < layout.size.toNat → Grant.Fresh kept ⟨addr, layout⟩ :=
      fun hpos => (spares.fresh (contract.alloc h ha) (contract.alloc_fresh h hpos ha)).right
    exact (spares.alloc h ha).trans (.clear (g := ⟨addr, layout⟩) hfresh)

theorem realloc (hnew : 0 < new.size.toNat)
    (h : contract.holds ({⟨addr, old⟩} + out) machine.store)
    (hr : allocator.realloc (some addr) old new machine = (result, machine')) :
    AgreeOn kept machine.memory machine'.memory := by
  have hmoving := hr ▸ moving allocator addr old machine hnew
  cases hmoving with
  | native hnative hn => exact spares.nativeRealloc hnative hnew h hn
  | refused ha => exact spares.alloc h ha
  | @copied fresh served ha =>
    have hout := contract.alloc h ha
    rw [granted_some] at hout
    have hcopied : AgreeOn kept served.memory
        (served.memory.copy addr fresh (min old.size new.size).toNat) :=
      spares.write (g := ⟨fresh, new⟩) hout (by
        rw [Memory.length_read, Word.toNat_min]
        exact Nat.min_le_right _ _)
    rw [add_left_comm] at hout
    have hreleased : AgreeOn kept (served.memory.copy addr fresh (min old.size new.size).toNat)
        (allocator.release addr old
          (served.mapMemory (·.copy addr fresh (min old.size new.size).toNat))).memory :=
      spares.release hout
    exact ((spares.alloc h ha).trans hcopied).trans hreleased

theorem keeps : contract.toLedger.Keeps kept :=
  ⟨spares.alloc, spares.release, spares.realloc, spares.zalloc⟩

end Contract.Spares

section Native

variable {plain : Allocator σ}
  {realloc : Word → Layout → Layout → Machine σ → Option Word × Machine σ}
  {zalloc : Layout → Machine σ → Option Word × Machine σ}

def Contract.natively (contract : plain.Contract) (spares : contract.Spares kept)
    (hrealloc : ∀ addr old new machine, 0 < new.size.toNat →
      realloc addr old new machine = plain.realloc (some addr) old new machine)
    (hzalloc : ∀ layout machine, zalloc layout machine = plain.zalloc layout machine) :
    ({ plain with nativeRealloc := some realloc, nativeZalloc := some zalloc } :
      Allocator σ).Contract where
  holds := contract.holds
  alloc := contract.alloc
  release := contract.release
  nativeRealloc := by
    intro _ hnative out addr old new machine result machine' hnew h hr
    obtain rfl := Option.some.inj hnative
    exact contract.toLedger.realloc hnew h (hrealloc _ _ _ _ hnew ▸ hr)
  nativeZalloc := by
    intro _ hnative out layout machine result machine' h hz
    obtain rfl := Option.some.inj hnative
    exact contract.toLedger.zalloc h (hzalloc _ _ ▸ hz)
  alloc_fresh := contract.alloc_fresh
  realloc_fresh := by
    intro _ hnative out addr old new machine fresh machine' hnew h hr
    obtain rfl := Option.some.inj hnative
    exact contract.fresh_of_realloc hnew h (hrealloc _ _ _ _ hnew ▸ hr)
  zalloc_fresh := by
    intro _ hnative out layout machine addr machine' h hpos hz
    obtain rfl := Option.some.inj hnative
    exact contract.fresh_of_zalloc hpos h (hzalloc _ _ ▸ hz)
  alloc_keeps := contract.alloc_keeps
  release_keeps := contract.release_keeps
  realloc_keeps := by
    intro _ hnative out addr old new machine result machine' hnew h hr
    obtain rfl := Option.some.inj hnative
    exact contract.realloc_agree hnew h (hrealloc _ _ _ _ hnew ▸ hr)
  realloc_refused := by
    intro _ hnative out addr old new machine machine' hnew h hr
    obtain rfl := Option.some.inj hnative
    exact contract.agree_of_unmoved hnew h (hrealloc _ _ _ _ hnew ▸ hr)
  realloc_moves := by
    intro _ hnative out addr old new machine fresh machine' hnew h hr
    obtain rfl := Option.some.inj hnative
    exact contract.bytes_of_moved hnew (fun _ => spares.stop_le h) h (hrealloc _ _ _ _ hnew ▸ hr)
  zalloc_keeps := by
    intro _ hnative out layout machine result machine' h hz
    obtain rfl := Option.some.inj hnative
    exact contract.zalloc_agree h (hzalloc _ _ ▸ hz)
  zalloc_zeroes := by
    intro _ hnative out layout machine addr machine' h hpos hz
    obtain rfl := Option.some.inj hnative
    exact contract.zero_of_zalloc hpos h (hzalloc _ _ ▸ hz)

theorem Contract.Spares.natively {contract : plain.Contract} (spares : contract.Spares kept)
    (hrealloc : ∀ addr old new machine, 0 < new.size.toNat →
      realloc addr old new machine = plain.realloc (some addr) old new machine)
    (hzalloc : ∀ layout machine, zalloc layout machine = plain.zalloc layout machine) :
    (contract.natively spares hrealloc hzalloc).Spares kept where
  packed := spares.packed
  alloc := spares.alloc
  release := spares.release
  nativeRealloc := by
    intro _ hnative out addr old new machine result machine' hnew h hr
    obtain rfl := Option.some.inj hnative
    exact spares.realloc hnew h (hrealloc _ _ _ _ hnew ▸ hr)
  nativeZalloc := by
    intro _ hnative out layout machine result machine' h hz
    obtain rfl := Option.some.inj hnative
    exact spares.zalloc h (hzalloc _ _ ▸ hz)

end Native

section Within

variable {τ : Type} {inner : Allocator τ} {part : σ → τ} {put : τ → σ → σ}

theorem within_alloc (h : (inner.within part put).alloc layout machine = (result, machine')) :
    ∃ served, inner.alloc layout (machine.withStore (part machine.store)) = (result, served) ∧
      machine' = served.withStore (put served.store machine.store) :=
  exists_of_zoom h

theorem within_nativeRealloc
    {realloc : Word → Layout → Layout → Machine σ → Option Word × Machine σ}
    (hnative : (inner.within part put).nativeRealloc = some realloc)
    (h : realloc addr old new machine = (result, machine')) :
    ∃ native served, inner.nativeRealloc = some native ∧
      native addr old new (machine.withStore (part machine.store)) = (result, served) ∧
      machine' = served.withStore (put served.store machine.store) := by
  obtain ⟨native, hinner, rfl⟩ := Option.map_eq_some_iff.1 hnative
  obtain ⟨served, hserved, hmachine⟩ := exists_of_zoom h
  exact ⟨native, served, hinner, hserved, hmachine⟩

theorem within_nativeZalloc {zalloc : Layout → Machine σ → Option Word × Machine σ}
    (hnative : (inner.within part put).nativeZalloc = some zalloc)
    (h : zalloc layout machine = (result, machine')) :
    ∃ native served, inner.nativeZalloc = some native ∧
      native layout (machine.withStore (part machine.store)) = (result, served) ∧
      machine' = served.withStore (put served.store machine.store) := by
  obtain ⟨native, hinner, rfl⟩ := Option.map_eq_some_iff.1 hnative
  obtain ⟨served, hserved, hmachine⟩ := exists_of_zoom h
  exact ⟨native, served, hinner, hserved, hmachine⟩

end Within

section Tracked

variable {inner : Allocator σ} {tracker? : σ → Option Tracker} {put : Tracker → σ → σ}

inductive Tracked (request : Machine σ → Option Word × Machine σ) (put : Tracker → σ → σ)
    (machine : Machine σ) : Option Word × Machine σ → Prop where
  | absent : Tracked request put machine (none, machine)
  | refused {trace tracker} :
      Tracked request put machine (none, ⟨machine.memory, trace, put tracker machine.store⟩)
  | answered {result served tracker} : request machine = (result, served) →
      Tracked request put machine (result, { served with store := put tracker served.store })

theorem tracked_serve (request : Layout → Machine σ → Option Word × Machine σ) (layout : Layout)
    (machine : Machine σ) :
    Tracked (request layout) put machine (tracked.serve tracker? put request layout machine) := by
  unfold tracked.serve Tracker.request
  cases tracker? machine.store with
  | none => exact .absent
  | some tracker =>
    dsimp only
    split
    · rcases hr : request layout machine with ⟨_ | addr, served⟩
      · exact .answered hr
      · exact .answered hr
    · exact .refused

theorem tracked_alloc (h : (inner.tracked tracker? put).alloc layout machine = (result, machine')) :
    Tracked (inner.alloc layout) put machine (result, machine') :=
  h ▸ tracked_serve inner.alloc layout machine

theorem tracked_zalloc {zalloc : Layout → Machine σ → Option Word × Machine σ}
    (hnative : (inner.tracked tracker? put).nativeZalloc = some zalloc)
    (h : zalloc layout machine = (result, machine')) :
    Tracked (inner.zalloc layout) put machine (result, machine') := by
  obtain rfl := Option.some.inj hnative
  exact h ▸ tracked_serve inner.zalloc layout machine

theorem tracked_release {addr : Word} (halive : tracker? machine.store ≠ none) :
    ∃ tracker, (inner.tracked tracker? put).release addr layout machine =
      inner.release addr layout { machine with store := put tracker machine.store } := by
  obtain ⟨tracker, htracker⟩ := Option.ne_none_iff_exists'.1 halive
  exact ⟨tracker.recordFreed layout.size, by simp only [tracked, htracker]⟩

/-- The contract passes on to a tracker that is alive, as long as it does not depend on what the
tracker counts. -/
def Contract.tracked (contract : inner.Contract)
    (hput : ∀ out tracker store, contract.holds out store → contract.holds out (put tracker store))
    (halive : ∀ out store, contract.holds out store → tracker? store ≠ none) :
    (inner.tracked tracker? put).Contract where
  holds := contract.holds
  alloc := by
    intro out layout machine result machine' h ha
    cases tracked_alloc ha with
    | absent => rwa [granted_none, zero_add]
    | refused => exact (zero_add out).symm ▸ hput _ _ _ h
    | answered hr => exact hput _ _ _ (contract.alloc h hr)
  release := by
    intro out addr layout machine h
    obtain ⟨tracker, hreleased⟩ := tracked_release (halive _ _ h)
    exact hreleased ▸ contract.release (hput _ tracker _ h)
  nativeRealloc hnative := by cases hnative
  nativeZalloc := by
    intro _ hnative out layout machine result machine' h hz
    cases tracked_zalloc hnative hz with
    | absent => rwa [granted_none, zero_add]
    | refused => exact (zero_add out).symm ▸ hput _ _ _ h
    | answered hr => exact hput _ _ _ (contract.toLedger.zalloc h hr)
  alloc_fresh := by
    intro out layout machine addr machine' h hpos ha
    cases tracked_alloc ha with
    | answered hr => exact contract.alloc_fresh h hpos hr
  realloc_fresh hnative := by cases hnative
  zalloc_fresh := by
    intro _ hnative out layout machine addr machine' h hpos hz
    cases tracked_zalloc hnative hz with
    | answered hr => exact contract.fresh_of_zalloc hpos h hr
  alloc_keeps := by
    intro out layout machine result machine' h ha
    cases tracked_alloc ha with
    | absent | refused => exact .refl _ _
    | answered hr =>
      have hkept := contract.alloc_keeps h hr
      exact hkept
  release_keeps := by
    intro out addr layout machine h
    obtain ⟨tracker, hreleased⟩ := tracked_release (halive _ _ h)
    exact hreleased ▸ contract.release_keeps (hput _ tracker _ h)
  realloc_keeps hnative := by cases hnative
  realloc_refused hnative := by cases hnative
  realloc_moves hnative := by cases hnative
  zalloc_keeps := by
    intro _ hnative out layout machine result machine' h hz
    cases tracked_zalloc hnative hz with
    | absent | refused => exact .refl _ _
    | answered hr =>
      have hkept := contract.zalloc_agree h hr
      exact hkept
  zalloc_zeroes := by
    intro _ hnative out layout machine addr machine' h hpos hz
    cases tracked_zalloc hnative hz with
    | answered hr =>
      have hzero := contract.zero_of_zalloc hpos h hr
      exact hzero

theorem Contract.Spares.tracked {contract : inner.Contract} (spares : contract.Spares kept)
    (hput : ∀ out tracker store, contract.holds out store → contract.holds out (put tracker store))
    (halive : ∀ out store, contract.holds out store → tracker? store ≠ none) :
    (contract.tracked hput halive).Spares kept where
  packed := spares.packed
  alloc := by
    intro out layout machine result machine' h ha
    cases tracked_alloc ha with
    | absent | refused => exact .refl _ _
    | answered hr =>
      have hkept := spares.alloc h hr
      exact hkept
  release := by
    intro out addr layout machine h
    obtain ⟨tracker, hreleased⟩ := tracked_release (halive _ _ h)
    exact hreleased ▸ spares.release (hput _ tracker _ h)
  nativeRealloc hnative := by cases hnative
  nativeZalloc := by
    intro _ hnative out layout machine result machine' h hz
    cases tracked_zalloc hnative hz with
    | absent | refused => exact .refl _ _
    | answered hr =>
      have hkept := spares.zalloc h hr
      exact hkept

end Tracked

end Allocator

end ArenaMemory
