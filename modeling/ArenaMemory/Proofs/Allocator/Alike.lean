import ArenaMemory.Proofs.Allocator.Accounting

namespace ArenaMemory

variable {σ τ α : Type}

/-- Machines with the same memory and alike stores. What was logged may differ. -/
structure Machine.Alike (same : σ → σ → Prop) (machine machine' : Machine σ) : Prop where
  memory_eq : machine.memory = machine'.memory
  store : same machine.store machine'.store

/-- Outcomes with the same answer that leave alike things behind. -/
inductive Paired (alike : τ → τ → Prop) : α × τ → α × τ → Prop where
  | intro (answer : α) {rest rest' : τ} : alike rest rest' →
      Paired alike (answer, rest) (answer, rest')

namespace Machine.Alike

variable {same : σ → σ → Prop} {machine machine' : Machine σ}

theorem emit (h : machine.Alike same machine') (event event' : Event) :
    (machine.emit event).Alike same (machine'.emit event') :=
  ⟨h.memory_eq, h.store⟩

theorem mapMemory (h : machine.Alike same machine') (f : Memory → Memory) :
    (machine.mapMemory f).Alike same (machine'.mapMemory f) :=
  ⟨congrArg f h.memory_eq, h.store⟩

theorem equivalence (h : Equivalence same) : Equivalence (Machine.Alike same) where
  refl machine := ⟨rfl, h.refl machine.store⟩
  symm hab := ⟨hab.memory_eq.symm, h.symm hab.store⟩
  trans hab hbc := ⟨hab.memory_eq.trans hbc.memory_eq, h.trans hab.store hbc.store⟩

end Machine.Alike

namespace Paired

variable {alike : τ → τ → Prop} {out out' : α × τ}

theorem answer_eq (h : Paired alike out out') : out.1 = out'.1 := by
  cases h
  rfl

theorem rest (h : Paired alike out out') : alike out.2 out'.2 := by
  cases h
  assumption

theorem exists_eq (h : Paired alike out out') : ∃ answer rest rest',
    out = (answer, rest) ∧ out' = (answer, rest') ∧ alike rest rest' := by
  cases h with
  | intro answer h => exact ⟨answer, _, _, rfl, rfl, h⟩

theorem equivalence (h : Equivalence alike) : Equivalence (@Paired τ α alike) where
  refl out := .intro out.1 (h.refl out.2)
  symm := by
    rintro _ _ ⟨answer, hab⟩
    exact .intro answer (h.symm hab)
  trans := by
    rintro _ _ _ ⟨answer, hab⟩ hbc
    cases hbc with
    | intro _ hbc => exact .intro answer (h.trans hab hbc)

end Paired

namespace Allocator

def composed (allocator : Allocator σ) : Allocator σ :=
  { allocator with nativeRealloc := none, nativeZalloc := none }

/-- Allocators that answer alike. Of zeroed and moved blocks this is asked only if they are not
empty: what an empty block of them is answered with is the allocator's own affair. -/
structure Alike (same : σ → σ → Prop) (allocator allocator' : Allocator σ) : Prop where
  alloc (layout : Layout) {machine machine' : Machine σ} : machine.Alike same machine' →
    Paired (Machine.Alike same) (allocator.alloc layout machine) (allocator'.alloc layout machine')
  release (addr : Word) (layout : Layout) {machine machine' : Machine σ} :
    machine.Alike same machine' →
    (allocator.release addr layout machine).Alike same (allocator'.release addr layout machine')
  zalloc {layout : Layout} {machine machine' : Machine σ} : 0 < layout.size.toNat →
    machine.Alike same machine' →
    Paired (Machine.Alike same) (allocator.zalloc layout machine)
      (allocator'.zalloc layout machine')
  realloc (addr : Word) {old new : Layout} {machine machine' : Machine σ} :
    0 < old.size.toNat → 0 < new.size.toNat → machine.Alike same machine' →
    Paired (Machine.Alike same) (allocator.realloc (some addr) old new machine)
      (allocator'.realloc (some addr) old new machine')

namespace Alike

variable {same : σ → σ → Prop} {a b c : Allocator σ}

theorem symm (hsame : Equivalence same) (h : a.Alike same b) : b.Alike same a := by
  have hmachines := Machine.Alike.equivalence hsame
  have hpaired : Equivalence (@Paired _ (Option Word) _) := Paired.equivalence hmachines
  constructor
  · intro layout machine machine' hm
    exact hpaired.symm (h.alloc layout (hmachines.symm hm))
  · intro addr layout machine machine' hm
    exact hmachines.symm (h.release addr layout (hmachines.symm hm))
  · intro layout machine machine' hpos hm
    exact hpaired.symm (h.zalloc hpos (hmachines.symm hm))
  · intro addr old new machine machine' hold hnew hm
    exact hpaired.symm (h.realloc addr hold hnew (hmachines.symm hm))

theorem trans (hsame : Equivalence same) (h : a.Alike same b) (h' : b.Alike same c) :
    a.Alike same c := by
  have hmachines := Machine.Alike.equivalence hsame
  have hpaired : Equivalence (@Paired _ (Option Word) _) := Paired.equivalence hmachines
  constructor
  · intro layout machine machine' hm
    exact hpaired.trans (h.alloc layout hm) (h'.alloc layout (hmachines.refl machine'))
  · intro addr layout machine machine' hm
    exact hmachines.trans (h.release addr layout hm)
      (h'.release addr layout (hmachines.refl machine'))
  · intro layout machine machine' hpos hm
    exact hpaired.trans (h.zalloc hpos hm) (h'.zalloc hpos (hmachines.refl machine'))
  · intro addr old new machine machine' hold hnew hm
    exact hpaired.trans (h.realloc addr hold hnew hm)
      (h'.realloc addr hold hnew (hmachines.refl machine'))

theorem of_parts
    (halloc : ∀ (layout : Layout) {machine machine' : Machine σ}, machine.Alike same machine' →
      Paired (Machine.Alike same) (a.alloc layout machine) (b.alloc layout machine'))
    (hrelease : ∀ (addr : Word) (layout : Layout) {machine machine' : Machine σ},
      machine.Alike same machine' →
      (a.release addr layout machine).Alike same (b.release addr layout machine')) :
    a.composed.Alike same b.composed := by
  constructor
  · exact halloc
  · exact hrelease
  · intro layout machine machine' hpos hm
    have hserved := halloc layout hm
    unfold Allocator.zalloc Allocator.composed
    obtain ⟨result, _, _, ha, hb, hm⟩ := hserved.exists_eq
    rw [ha, hb]
    cases result with
    | none => exact .intro none hm
    | some addr => exact .intro (some addr) (hm.mapMemory _)
  · intro addr old new machine machine' hold hnew hm
    have hserved := halloc new hm
    have hne : new.size ≠ 0 := fun he => by simp [he] at hnew
    simp only [Allocator.realloc, Allocator.composed, if_neg hne]
    obtain ⟨result, _, _, ha, hb, hm⟩ := hserved.exists_eq
    rw [ha, hb]
    cases result with
    | none => exact .intro none hm
    | some fresh => exact .intro (some fresh) (hrelease addr old (hm.mapMemory _))

theorem composed (h : a.Alike same b) : a.composed.Alike same b.composed :=
  of_parts h.alloc h.release

end Alike

/-- What the allocator does natively is what the handle would compose, for blocks that are not
empty. -/
structure Faithful (allocator : Allocator σ) : Prop where
  zalloc {layout : Layout} (machine : Machine σ) : 0 < layout.size.toNat →
    allocator.zalloc layout machine = allocator.composed.zalloc layout machine
  realloc (addr : Word) (old : Layout) {new : Layout} (machine : Machine σ) :
    0 < new.size.toNat →
    allocator.realloc (some addr) old new machine =
      allocator.composed.realloc (some addr) old new machine

namespace Faithful

variable {same : σ → σ → Prop} {a b : Allocator σ}

theorem alike_composed (ha : a.Faithful) (h : a.composed.Alike same b.composed) :
    a.Alike same b.composed where
  alloc := h.alloc
  release := h.release
  zalloc hpos hm := ha.zalloc _ hpos ▸ h.zalloc hpos hm
  realloc addr _ _ _ _ hold hnew hm := ha.realloc addr _ _ hnew ▸ h.realloc addr hold hnew hm

theorem alike (ha : a.Faithful) (hb : b.Faithful) (h : a.composed.Alike same b.composed) :
    a.Alike same b where
  alloc := h.alloc
  release := h.release
  zalloc hpos hm := by
    rw [ha.zalloc _ hpos, hb.zalloc _ hpos]
    exact h.zalloc hpos hm
  realloc addr old new machine machine' hold hnew hm := by
    rw [ha.realloc addr old machine hnew, hb.realloc addr old machine' hnew]
    exact h.realloc addr hold hnew hm

end Faithful

section Within

variable {inner inner' : Allocator τ} {part : σ → τ} {put : τ → σ → σ} {machine machine' : Machine σ}

/-- Moving a block asks for one and gives one back: the part that is put back in between is the one
that is taken out again. -/
theorem realloc_within (hget : ∀ store outer, part (put store outer) = store)
    (hlast : ∀ store store' outer, put store' (put store outer) = put store' outer)
    (addr : Word) (old new : Layout) (machine : Machine σ) :
    (inner.within part put).realloc (some addr) old new machine =
      machine.zoom part put (inner.realloc (some addr) old new) := by
  unfold Allocator.realloc
  cases hnative : inner.nativeRealloc with
  | some realloc => simp only [within, hnative, Option.map_some]
  | none =>
    have hcomposed : (inner.within part put).nativeRealloc = none := by
      simp only [within, hnative, Option.map_none]
    rw [hcomposed]
    by_cases hzero : new.size = 0
    · simp only [if_pos hzero]
      rfl
    · simp only [if_neg hzero]
      rcases ha : inner.alloc new (machine.withStore (part machine.store)) with ⟨_ | fresh, served⟩
      all_goals
        have hz : (inner.within part put).alloc new machine = _ := zoom_eq ha
        rw [hz, Machine.zoom]
        simp only [ha]
      simp only [within, Machine.zoom, Machine.mapMemory, Machine.withStore, hget, hlast]

variable {same : τ → τ → Prop} {same' : σ → σ → Prop}
  (hpart : ∀ ⦃outer outer' : σ⦄, same' outer outer' → same (part outer) (part outer'))
  (hput : ∀ ⦃outer outer' : σ⦄ ⦃store store' : τ⦄, same' outer outer' → same store store' →
    same' (put store outer) (put store' outer'))
include hpart hput

theorem zoom_alike {action action' : Machine τ → α × Machine τ}
    (haction : ∀ {inner inner' : Machine τ}, inner.Alike same inner' →
      Paired (Machine.Alike same) (action inner) (action' inner'))
    (hm : machine.Alike same' machine') :
    Paired (Machine.Alike same') (machine.zoom part put action)
      (machine'.zoom part put action') := by
  have hserved := haction (⟨hm.memory_eq, hpart hm.store⟩ :
    (machine.withStore (part machine.store)).Alike same (machine'.withStore (part machine'.store)))
  unfold Machine.zoom
  dsimp only
  obtain ⟨answer, _, _, ha, hb, hserved⟩ := hserved.exists_eq
  rw [ha, hb]
  exact .intro answer ⟨hserved.memory_eq, hput hm.store hserved.store⟩

theorem within_alike (hget : ∀ store outer, part (put store outer) = store)
    (hlast : ∀ store store' outer, put store' (put store outer) = put store' outer)
    (h : inner.Alike same inner') : (inner.within part put).Alike same' (inner'.within part put) := by
  constructor
  · intro layout machine machine' hm
    exact zoom_alike hpart hput (h.alloc layout) hm
  · intro addr layout machine machine' hm
    have hreleased := zoom_alike hpart hput (fun hm => .intro () (h.release addr layout hm)) hm
    exact hreleased.rest
  · intro layout machine machine' hpos hm
    rw [zalloc_within, zalloc_within]
    exact zoom_alike hpart hput (h.zalloc hpos) hm
  · intro addr old new machine machine' hold hnew hm
    rw [realloc_within hget hlast, realloc_within hget hlast]
    exact zoom_alike hpart hput (h.realloc addr hold hnew) hm

end Within

section Tracked

variable {same : σ → σ → Prop} {a b : Allocator σ} {tracker? : σ → Option Tracker}
  {put : Tracker → σ → σ} {machine machine' : Machine σ}
  {request request' : Layout → Machine σ → Option Word × Machine σ} {layout : Layout}

theorem request_alike (tracker : Tracker) (hm : machine.Alike same machine')
    (hrequest : Paired (Machine.Alike same) (request layout machine) (request' layout machine')) :
    Paired (Paired (Machine.Alike same)) (tracker.request request layout machine)
      (tracker.request request' layout machine') := by
  unfold Tracker.request
  split
  · obtain ⟨result, _, _, ha, hb, hm⟩ := hrequest.exists_eq
    rw [ha, hb]
    cases result with
    | none => exact .intro none (.intro _ hm)
    | some addr => exact .intro (some addr) (.intro _ hm)
  · exact .intro none (.intro _ (hm.emit _ _))

-- Stores that are alike have the same tracker, and stay alike when it is replaced.
variable (hlook : ∀ ⦃store store' : σ⦄, same store store' → tracker? store = tracker? store')
  (hput : ∀ (tracker : Tracker) ⦃store store' : σ⦄, same store store' →
    same (put tracker store) (put tracker store'))
include hlook hput

theorem tracked_serve_alike (hm : machine.Alike same machine')
    (hrequest : Paired (Machine.Alike same) (request layout machine) (request' layout machine')) :
    Paired (Machine.Alike same) (tracked.serve tracker? put request layout machine)
      (tracked.serve tracker? put request' layout machine') := by
  unfold tracked.serve
  rw [← hlook hm.store]
  cases tracker? machine.store with
  | none => exact .intro none hm
  | some tracker =>
    have hserved := request_alike tracker hm hrequest
    dsimp only
    obtain ⟨result, _, _, ha, hb, ⟨tracker, hm⟩⟩ := hserved.exists_eq
    rw [ha, hb]
    exact .intro result ⟨hm.memory_eq, hput tracker hm.store⟩

theorem tracked_alike (h : a.Alike same b) :
    (a.tracked tracker? put).Alike same (b.tracked tracker? put) := by
  have hcomposed : (a.tracked tracker? put).composed.Alike same (b.tracked tracker? put).composed := by
    apply Alike.of_parts
    · intro layout machine machine' hm
      exact tracked_serve_alike hlook hput hm (h.alloc layout hm)
    · intro addr layout machine machine' hm
      unfold tracked
      dsimp only
      rw [← hlook hm.store]
      cases tracker? machine.store with
      | none => exact hm
      | some tracker => exact h.release addr layout ⟨hm.memory_eq, hput _ hm.store⟩
  constructor
  · exact hcomposed.alloc
  · exact hcomposed.release
  · intro layout machine machine' hpos hm
    exact tracked_serve_alike hlook hput hm (h.zalloc hpos hm)
  · -- A tracker has no native way to move a block.
    exact hcomposed.realloc

omit hlook hput in
theorem faithful_tracked (a : Allocator σ) (tracker? : σ → Option Tracker) (put : Tracker → σ → σ) :
    (a.composed.tracked tracker? put).Faithful where
  zalloc {layout} machine _ := by
    simp only [Allocator.zalloc, Allocator.composed, tracked, tracked.serve, Tracker.request]
    cases tracker? machine.store with
    | none => rfl
    | some tracker =>
      dsimp only
      split
      · rcases a.alloc layout machine with ⟨_ | addr, served⟩ <;> rfl
      · rfl
  realloc _ _ _ _ _ := rfl

theorem tracked_optional (hsame : Equivalence same) (h : a.Alike same a.composed) :
    (a.tracked tracker? put).Alike same (a.tracked tracker? put).composed := by
  have hbehind : (a.tracked tracker? put).Alike same (a.composed.tracked tracker? put) :=
    tracked_alike hlook hput h
  have hsteady : (a.composed.tracked tracker? put).Alike same (a.composed.tracked tracker? put) :=
    tracked_alike hlook hput h.composed
  exact hbehind.trans hsame ((faithful_tracked a tracker? put).alike_composed hsteady.composed)

end Tracked

end Allocator

end ArenaMemory
