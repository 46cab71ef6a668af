import Mathlib.Order.Bounds.Basic
import ArenaMemory.Proofs.Allocator.Accounting
import ArenaMemory.Proofs.Allocator.Recorder
import ArenaMemory.Proofs.Allocator.Window

namespace ArenaMemory

variable {σ : Type}

namespace Call

def isServed : Call → Bool
  | .alloc _ result | .zalloc _ result => result.isSome
  | .release _ | .realloc .. => false

def isRefused : Call → Bool
  | .alloc _ result | .zalloc _ result => result.isNone
  | .release _ | .realloc .. => false

def isRelease : Call → Bool
  | .release _ => true
  | .alloc .. | .zalloc .. | .realloc .. => false

@[simp]
theorem isServed_release (g : Grant) : (release g).isServed = false := rfl

@[simp]
theorem isRefused_release (g : Grant) : (release g).isRefused = false := rfl

@[simp]
theorem isRelease_release (g : Grant) : (release g).isRelease = true := rfl

end Call

def heldBytes (calls : List Call) : Nat := bytesOut ((outstanding? calls).getD 0)

/-- A request for a block, zeroed or not. -/
structure Ask where
  layout : Layout
  zeroed : Bool

namespace Ask

def serve (ask : Ask) (allocator : Allocator σ) (machine : Machine σ) : Option Word × Machine σ :=
  if ask.zeroed then allocator.zalloc ask.layout machine else allocator.alloc ask.layout machine

def call (ask : Ask) (result : Option Word) : Call :=
  if ask.zeroed then .zalloc ask.layout result else .alloc ask.layout result

variable {allocator : Allocator σ} {ask : Ask} {machine machine' : Machine σ} {out : Multiset Grant}
  {result : Option Word}

@[simp]
theorem isServed_call (ask : Ask) (result : Option Word) :
    (ask.call result).isServed = result.isSome := by
  rw [call]
  split <;> rfl

@[simp]
theorem isRefused_call (ask : Ask) (result : Option Word) :
    (ask.call result).isRefused = result.isNone := by
  rw [call]
  split <;> rfl

@[simp]
theorem isRelease_call (ask : Ask) (result : Option Word) :
    (ask.call result).isRelease = false := by
  rw [call]
  split <;> rfl

theorem settle?_call : (ask.call result).settle? out = some (granted result ask.layout + out) := by
  rw [call]
  split <;> rfl

theorem holds (ledger : allocator.Ledger) (h : ledger.holds out machine.store)
    (hs : ask.serve allocator machine = (result, machine')) :
    ledger.holds (granted result ask.layout + out) machine'.store := by
  rw [serve] at hs
  split at hs
  · exact ledger.zalloc h hs
  · exact ledger.alloc h hs

end Ask

namespace Tracker

inductive Operation where
  | alloc (layout : Layout)
  | zalloc (layout : Layout)
  | free (block : Option Word) (layout : Layout)
  | realloc (block : Option Word) (old new : Layout)
  | setBudget (budget : Option Word)

namespace Operation

def perform (op : Operation) (inner : Allocator σ) (machine : Machine (Recorded (Tracker × σ))) :
    Option Word × Machine (Recorded (Tracker × σ)) :=
  match op with
  | alloc layout => inner.accounted.recorded.alloc layout machine
  | zalloc layout => inner.accounted.recorded.zalloc layout machine
  | free block layout => (none, inner.accounted.recorded.free block layout machine)
  | realloc block old new => inner.accounted.recorded.realloc block old new machine
  | setBudget budget =>
    let (tracker, store) := machine.store.inner
    (none, machine.withStore ⟨machine.store.calls, tracker.setBudget budget, store⟩)

def block? : Operation → Option Grant
  | free (some addr) layout => some ⟨addr, layout⟩
  | realloc (some addr) old _ => some ⟨addr, old⟩
  | alloc _ | zalloc _ | free none _ | realloc none .. | setBudget _ => none

/-- What an operation asks the tracker for: moving a block asks for another, unless the new layout
is empty. -/
def ask? : Operation → Option Ask
  | alloc layout => some ⟨layout, false⟩
  | zalloc layout => some ⟨layout, true⟩
  | realloc none _ new => some ⟨new, false⟩
  | realloc (some _) _ new => if new.size = 0 then none else some ⟨new, false⟩
  | free .. | setBudget _ => none

def budgetAfter (budget : Option Word) : Operation → Option Word
  | setBudget other => other
  | alloc _ | zalloc _ | free .. | realloc .. => budget

end Operation

/-- The budget in force after operations, the latest first: the one that was set last, or else the
one of the start. -/
def budgetInForce (budget : Option Word) : List Operation → Option Word
  | [] => budget
  | op :: ops => op.budgetAfter (budgetInForce budget ops)

/-- The runs of a tracker, the latest operation first. An operation names only blocks that are out,
with their own layouts; `others` says what may happen behind the tracker while its blocks are out.
-/
inductive Run (inner : Allocator σ) (others : Multiset Grant → Machine σ → Machine σ → Prop)
    (start : Machine σ) (budget : Option Word) :
    List Operation → Machine (Recorded (Tracker × σ)) → Prop where
  | start : Run inner others start budget [] (start.withStore ⟨[], { budget }, start.store⟩)
  | perform {ops machine result machine'} (op : Operation) :
      Run inner others start budget ops machine →
      (∀ g, op.block? = some g → ∃ live, outstanding? machine.store.calls = some live ∧ g ∈ live) →
      op.perform inner machine = (result, machine') →
      Run inner others start budget (op :: ops) machine'
  | others {ops machine live after} : Run inner others start budget ops machine →
      outstanding? machine.store.calls = some live →
      others live (machine.withStore machine.store.inner.2) after →
      Run inner others start budget ops
        (after.withStore ⟨machine.store.calls, machine.store.inner.1, after.store⟩)

/-- The budget has no room for so many bytes beside those that are out. -/
def Exceeded (tracker : Tracker) (size : Word) : Prop :=
  ∃ limit, tracker.budget = some limit ∧
    limit.toNat < tracker.stats.outstanding.toNat + size.toNat

theorem fits_eq_false_iff {tracker : Tracker} {size : Word} :
    tracker.fits size = false ↔ tracker.Exceeded size := by
  rw [fits, Exceeded]
  cases tracker.budget with
  | none => simp
  | some limit =>
    have hlimit := limit.toNat_lt
    cases hc : Word.checkedAdd tracker.stats.outstanding size with
    | none =>
      rw [Word.checkedAdd_eq_none] at hc
      simp only [Option.some.injEq, exists_eq_left', true_iff]
      omega
    | some total =>
      rw [Word.checkedAdd_eq_some] at hc
      simp [UInt64.lt_iff_toNat_lt, hc]

theorem le_of_fits {tracker : Tracker} {size limit : Word} (hfits : tracker.fits size = true)
    (hlimit : tracker.budget = some limit) :
    tracker.stats.outstanding.toNat + size.toNat ≤ limit.toNat := by
  by_contra hlt
  rw [fits_eq_false_iff.2 ⟨limit, hlimit, Nat.lt_of_not_le hlt⟩] at hfits
  cases hfits

end Tracker

section Tally

open Allocator

variable {inner : Allocator σ} {placement : inner.Placement} {live : Multiset Grant} {ask : Ask}
  {machine machine' : Machine (Recorded (Tracker × σ))} {result : Option Word} {addr : Word}
  {layout : Layout} {calls : List Call} {call : Call} {op : Tracker.Operation} {limit : Word}

theorem heldBytes_eq (h : outstanding? calls = some live) : heldBytes calls = bytesOut live := by
  rw [heldBytes, h, Option.getD_some]

theorem image_heldBytes_cons : heldBytes '' {earlier | earlier <:+ call :: calls} =
    insert (heldBytes (call :: calls)) (heldBytes '' {earlier | earlier <:+ calls}) := by
  have hsuffix : {earlier | earlier <:+ call :: calls} =
      insert (call :: calls) {earlier | earlier <:+ calls} := by
    ext earlier
    exact List.suffix_cons_iff
  rw [hsuffix, Set.image_insert_eq]

namespace Ask

theorem recorded (hs : ask.serve inner.accounted.recorded machine = (result, machine')) :
    ∃ served, ask.serve inner.accounted (machine.withStore machine.store.inner) = (result, served) ∧
      machine' = served.withStore ⟨ask.call result :: machine.store.calls, served.store⟩ := by
  obtain ⟨layout, zeroed⟩ := ask
  cases zeroed
  all_goals
    obtain ⟨rfl, rfl⟩ := Prod.mk.inj hs
    exact ⟨_, rfl, rfl⟩

theorem accounted {machine served : Machine (Tracker × σ)}
    (hs : ask.serve inner.accounted machine = (result, served)) :
    Accounted (ask.serve inner) ask.layout machine (result, served) := by
  obtain ⟨layout, zeroed⟩ := ask
  cases zeroed with
  | false => exact accounted_alloc hs
  | true => exact accounted_zalloc rfl hs

end Ask

/-- The counters of a tracker agree with the record of the calls. -/
structure Audited (placement : inner.Placement) (live : Multiset Grant)
    (store : Recorded (Tracker × σ)) : Prop where
  live_eq : outstanding? store.calls = some live
  holds : placement.accounted.holds live store.inner
  allocations_eq :
    store.inner.1.stats.allocations = UInt64.ofNat (store.calls.countP Call.isServed)
  frees_eq : store.inner.1.stats.frees = UInt64.ofNat (store.calls.countP Call.isRelease)
  failures_eq : store.inner.1.stats.failures = UInt64.ofNat (store.calls.countP Call.isRefused)
  card_eq : store.calls.countP Call.isServed = store.calls.countP Call.isRelease + live.card
  peak : IsGreatest (heldBytes '' {earlier | earlier <:+ store.calls})
    store.inner.1.stats.peak.toNat

namespace Audited

theorem heldBytes_mem (calls : List Call) :
    heldBytes calls ∈ heldBytes '' {earlier | earlier <:+ calls} :=
  ⟨calls, List.suffix_rfl, rfl⟩

theorem asked (h : Audited placement live machine.store)
    (hs : ask.serve inner.accounted.recorded machine = (result, machine')) :
    Audited placement (granted result ask.layout + live) machine'.store := by
  obtain ⟨served, hserved, rfl⟩ := ask.recorded hs
  have htracker : served.store.1 = noted machine.store.inner.1 ask.layout result :=
    (ask.accounted hserved).tracker_eq
  have hout := ask.holds placement.accounted.toLedger h.holds hserved
  have hlive : outstanding? (ask.call result :: machine.store.calls) =
      some (granted result ask.layout + live) :=
    (outstanding?_cons h.live_eq).trans ask.settle?_call
  have hheld := heldBytes_eq hlive
  cases result with
  | none =>
    rw [granted_none, zero_add] at hlive hout hheld ⊢
    refine ⟨hlive, hout, ?_, ?_, ?_, ?_, ?_⟩
    all_goals dsimp only [Machine.withStore]
    · simp [htracker, noted, Tracker.recordRefused, h.allocations_eq]
    · simp [htracker, noted, Tracker.recordRefused, h.frees_eq]
    · simp [htracker, noted, Tracker.recordRefused, h.failures_eq, UInt64.ofNat_add]
    · simp [h.card_eq]
    · rw [image_heldBytes_cons, hheld, ← heldBytes_eq h.live_eq,
        Set.insert_eq_of_mem (heldBytes_mem _), htracker]
      exact h.peak
  | some addr =>
    refine ⟨hlive, hout, ?_, ?_, ?_, ?_, ?_⟩
    all_goals dsimp only [Machine.withStore]
    · simp [htracker, noted, Tracker.recordServed, h.allocations_eq, UInt64.ofNat_add]
    · simp [htracker, noted, Tracker.recordServed, h.frees_eq]
    · simp [htracker, noted, Tracker.recordServed, h.failures_eq]
    · simp [h.card_eq]
      omega
    · have hpeak : served.store.1.stats.peak =
          max machine.store.inner.1.stats.peak served.store.1.stats.outstanding := by
        rw [htracker]
        rfl
      rw [image_heldBytes_cons, hheld, ← hout.2.outstanding_eq, hpeak, Word.toNat_max, max_comm]
      exact h.peak.insert _

theorem released (h : Audited placement ({⟨addr, layout⟩} + live) machine.store) :
    Audited placement live (inner.accounted.recorded.release addr layout machine).store := by
  have hout : placement.accounted.holds live
      (inner.accounted.release addr layout (machine.withStore machine.store.inner)).store :=
    placement.accounted.release h.holds
  have hlive : outstanding? (.release ⟨addr, layout⟩ :: machine.store.calls) = some live :=
    outstanding?_release h.live_eq
  have htracker : (inner.accounted.recorded.release addr layout machine).store.inner.1 =
      machine.store.inner.1.recordFreed layout.size := rfl
  have hcalls : (inner.accounted.recorded.release addr layout machine).store.calls =
      .release ⟨addr, layout⟩ :: machine.store.calls := rfl
  have hle : heldBytes (.release ⟨addr, layout⟩ :: machine.store.calls) ≤
      machine.store.inner.1.stats.peak.toNat := by
    refine Nat.le_trans ?_ (h.peak.2 (heldBytes_mem _))
    rw [heldBytes_eq hlive, heldBytes_eq h.live_eq, bytesOut_add]
    exact Nat.le_add_left _ _
  refine ⟨hlive, hout, ?_, ?_, ?_, ?_, ?_⟩
  all_goals rw [hcalls]
  · simp [htracker, Tracker.recordFreed, h.allocations_eq]
  · simp [htracker, Tracker.recordFreed, List.countP_cons, h.frees_eq, UInt64.ofNat_add]
  · simp [htracker, Tracker.recordFreed, h.failures_eq]
  · simp [List.countP_cons, h.card_eq]
    omega
  · rw [htracker, image_heldBytes_cons]
    have hinsert := h.peak.insert (heldBytes (.release ⟨addr, layout⟩ :: machine.store.calls))
    rwa [max_eq_right hle] at hinsert

theorem setBudget (h : Audited placement live machine.store) (budget : Option Word) :
    Audited placement live
      ((Tracker.Operation.setBudget budget).perform inner machine).2.store :=
  ⟨h.live_eq, ⟨h.holds.1, ⟨h.holds.2.packed, h.holds.2.outstanding_eq⟩⟩, h.allocations_eq,
    h.frees_eq, h.failures_eq, h.card_eq, h.peak⟩

end Audited

namespace Tracker

inductive Performed (inner : Allocator σ) (machine : Machine (Recorded (Tracker × σ))) :
    Operation → Option Word × Machine (Recorded (Tracker × σ)) → Prop where
  | asked {op : Operation} {ask : Ask} {result machine'} :
      op.ask? = some ask → op.block? = none ∨ result = none →
      ask.serve inner.accounted.recorded machine = (result, machine') →
      Performed inner machine op (result, machine')
  | moved {op : Operation} {ask : Ask} {addr layout fresh between} (f : Memory → Memory) :
      op.ask? = some ask → op.block? = some ⟨addr, layout⟩ →
      ask.serve inner.accounted.recorded machine = (some fresh, between) →
      Performed inner machine op
        (some fresh, inner.accounted.recorded.release addr layout (between.mapMemory f))
  | released {op : Operation} {addr layout} : op.ask? = none → op.block? = some ⟨addr, layout⟩ →
      Performed inner machine op (none, inner.accounted.recorded.release addr layout machine)
  | ignored (layout : Layout) : Performed inner machine (.free none layout) (none, machine)
  | budgeted (budget) : Performed inner machine (.setBudget budget)
      ((Operation.setBudget budget).perform inner machine)

theorem performed (inner : Allocator σ) (machine : Machine (Recorded (Tracker × σ)))
    (op : Operation) : Performed inner machine op (op.perform inner machine) := by
  cases op with
  | alloc layout => exact @Performed.asked _ _ _ _ ⟨layout, false⟩ _ _ rfl (.inl rfl) rfl
  | zalloc layout => exact @Performed.asked _ _ _ _ ⟨layout, true⟩ _ _ rfl (.inl rfl) rfl
  | free block layout =>
    cases block with
    | none => exact .ignored layout
    | some addr => exact .released rfl rfl
  | realloc block old new =>
    cases block with
    | none => exact @Performed.asked _ _ _ _ ⟨new, false⟩ _ _ rfl (.inl rfl) rfl
    | some addr =>
      by_cases hnew : new.size = 0
      · have hemptied : inner.accounted.recorded.realloc (some addr) old new machine =
            (none, inner.accounted.recorded.release addr old machine) := if_pos hnew
        rw [Operation.perform, hemptied]
        exact .released (if_pos hnew) rfl
      · have hask : (Operation.realloc (some addr) old new).ask? = some ⟨new, false⟩ := if_neg hnew
        have hpos : 0 < new.size.toNat :=
          Nat.pos_of_ne_zero fun hzero => hnew (UInt64.toNat_inj.1 hzero)
        have hmoving := moving inner.accounted.recorded addr old machine hpos
        rw [Operation.perform]
        generalize inner.accounted.recorded.realloc (some addr) old new machine = out at hmoving ⊢
        cases hmoving with
        | native hnative => cases hnative
        | refused ha => exact .asked hask (.inr rfl) ha
        | copied ha => exact .moved _ hask rfl ha
  | setBudget budget => exact .budgeted budget

variable {start : Machine σ} {budget : Option Word} {ops : List Operation}
  {others : Multiset Grant → Machine σ → Machine σ → Prop}

theorem audited_perform (h : Audited placement live machine.store)
    (hnamed : ∀ g, op.block? = some g → g ∈ live)
    (hp : op.perform inner machine = (result, machine')) :
    ∃ live', Audited placement live' machine'.store := by
  have hperformed := hp ▸ performed inner machine op
  cases hperformed with
  | asked hask hnone hs => exact ⟨_, h.asked hs⟩
  | @moved _ _ addr layout fresh between f hask hblock hs =>
    obtain ⟨rest, rfl⟩ := Multiset.exists_cons_of_mem (hnamed _ hblock)
    have hasked := h.asked hs
    rw [← Multiset.singleton_add, add_left_comm] at hasked
    exact ⟨_, @Audited.released _ _ _ _ (between.mapMemory f) _ _ hasked⟩
  | released hask hblock =>
    obtain ⟨rest, rfl⟩ := Multiset.exists_cons_of_mem (hnamed _ hblock)
    exact ⟨rest, h.released⟩
  | ignored => exact ⟨live, h⟩
  | budgeted budget => exact ⟨live, h.setBudget budget⟩

theorem Run.audited (hstart : placement.holds 0 start.store)
    (run : Run inner (fun live _ after => placement.holds live after.store) start budget ops
      machine) :
    ∃ live, Audited placement live machine.store := by
  induction run with
  | start =>
    refine ⟨0, rfl, ⟨hstart, ⟨.zero, rfl⟩⟩, rfl, rfl, rfl, rfl, ?_⟩
    simp [Machine.withStore, heldBytes, bytesOut, outstanding?]
  | perform op _ hnamed hp ih =>
    obtain ⟨live, h⟩ := ih
    refine audited_perform h (fun g hg => ?_) hp
    obtain ⟨held, hheld, hmem⟩ := hnamed g hg
    exact Option.some.inj (hheld.symm.trans h.live_eq) ▸ hmem
  | others _ hlive ho ih =>
    obtain ⟨held, h⟩ := ih
    obtain rfl := Option.some.inj (hlive.symm.trans h.live_eq)
    exact ⟨_, h.live_eq, ⟨ho, h.holds.2⟩, h.allocations_eq, h.frees_eq, h.failures_eq, h.card_eq,
      h.peak⟩

theorem exists_made (hp : op.perform inner machine = (result, machine')) :
    ∃ made, machine'.store.calls = made ++ machine.store.calls ∧ made.countP Call.isServed ≤ 1 ∧
      made.countP Call.isRelease ≤ 1 ∧ made.countP Call.isRefused ≤ 1 := by
  have hperformed := hp ▸ performed inner machine op
  cases hperformed with
  | @asked _ ask _ _ hask hnone hs =>
    obtain ⟨served, -, rfl⟩ := ask.recorded hs
    exact ⟨[ask.call result], rfl, List.countP_le_length, List.countP_le_length,
      List.countP_le_length⟩
  | @moved _ ask addr layout fresh between f hask hblock hs =>
    obtain ⟨served, -, rfl⟩ := ask.recorded hs
    refine ⟨[.release ⟨addr, layout⟩, ask.call (some fresh)], rfl, ?_, ?_, ?_⟩
    all_goals simp [List.countP_cons]
  | @released _ addr layout hask hblock =>
    exact ⟨[.release ⟨addr, layout⟩], rfl, List.countP_le_length, List.countP_le_length,
      List.countP_le_length⟩
  | ignored | budgeted => exact ⟨[], rfl, Nat.zero_le _, Nat.zero_le _, Nat.zero_le _⟩

theorem Run.countP_le (run : Run inner others start budget ops machine) :
    machine.store.calls.countP Call.isServed ≤ ops.length ∧
      machine.store.calls.countP Call.isRelease ≤ ops.length ∧
      machine.store.calls.countP Call.isRefused ≤ ops.length := by
  induction run with
  | start => exact ⟨Nat.le_refl _, Nat.le_refl _, Nat.le_refl _⟩
  | perform op _ _ hp ih =>
    obtain ⟨made, hcalls, hserved, hreleased, hrefused⟩ := exists_made hp
    rw [hcalls, List.countP_append, List.countP_append, List.countP_append, List.length_cons]
    omega
  | others _ _ _ ih => exact ih

theorem budget_of_asked (hs : ask.serve inner.accounted.recorded machine = (result, machine')) :
    machine'.store.inner.1.budget = machine.store.inner.1.budget := by
  obtain ⟨served, hserved, rfl⟩ := ask.recorded hs
  have htracker : served.store.1 = noted machine.store.inner.1 ask.layout result :=
    (ask.accounted hserved).tracker_eq
  dsimp only [Machine.withStore]
  rw [htracker]
  cases result <;> rfl

theorem budgetAfter_of_ask? {budget : Option Word} (hask : op.ask? = some ask) :
    op.budgetAfter budget = budget := by
  cases op with
  | setBudget => cases hask
  | alloc | zalloc | free | realloc => rfl

theorem perform_budget (hp : op.perform inner machine = (result, machine')) :
    machine'.store.inner.1.budget = op.budgetAfter machine.store.inner.1.budget := by
  have hperformed := hp ▸ performed inner machine op
  cases hperformed with
  | asked hask hnone hs =>
    rw [budgetAfter_of_ask? hask]
    exact budget_of_asked hs
  | moved f hask hblock hs =>
    have hasked := budget_of_asked hs
    rw [budgetAfter_of_ask? hask]
    exact hasked
  | released hask hblock =>
    cases op with
    | setBudget => cases hblock
    | alloc | zalloc | free | realloc => rfl
  | ignored | budgeted => rfl

theorem Run.budget_eq (run : Run inner others start budget ops machine) :
    machine.store.inner.1.budget = budgetInForce budget ops := by
  induction run with
  | start => rfl
  | perform op _ _ hp ih => exact (perform_budget hp).trans (congrArg op.budgetAfter ih)
  | others _ _ _ ih => exact ih

def Capped (limit : Word) (tracker : Tracker) : Prop :=
  tracker.budget = some limit ∧ tracker.stats.peak.toNat ≤ limit.toNat

theorem Capped.asked (h : Capped limit machine.store.inner.1)
    (hs : ask.serve inner.accounted.recorded machine = (result, machine')) :
    Capped limit machine'.store.inner.1 := by
  obtain ⟨served, hserved, rfl⟩ := ask.recorded hs
  have haccounted := ask.accounted hserved
  have htracker : served.store.1 = noted machine.store.inner.1 ask.layout result :=
    haccounted.tracker_eq
  dsimp only [Machine.withStore]
  rw [htracker]
  cases result with
  | none => exact h
  | some addr =>
    have hle := le_of_fits haccounted.fits h.1
    have hsum : (machine.store.inner.1.stats.outstanding + ask.layout.size).toNat = _ :=
      Word.toNat_add_of_lt (Nat.lt_of_le_of_lt hle limit.toNat_lt)
    refine ⟨h.1, ?_⟩
    rw [noted, recordServed, Word.toNat_max, hsum]
    exact max_le h.2 hle

theorem Run.capped (run : Run inner others start budget ops machine) (hbudget : budget = some limit)
    (hconstant : ∀ other, .setBudget other ∈ ops → other = some limit) :
    Capped limit machine.store.inner.1 := by
  induction run with
  | start => exact ⟨hbudget, Nat.zero_le _⟩
  | perform op _ _ hp ih =>
    have h := ih fun other hmem => hconstant other (List.mem_cons_of_mem op hmem)
    have hperformed := hp ▸ performed inner _ op
    cases hperformed with
    | asked hask hnone hs => exact h.asked hs
    | moved f hask hblock hs =>
      have hasked := h.asked hs
      exact hasked
    | released | ignored => exact h
    | budgeted other => exact ⟨hconstant other List.mem_cons_self, h.2⟩
  | others _ _ _ ih => exact ih hconstant

/-- What the budget refuses is refused whatever the allocator behind is, and leaves it as it is. -/
theorem perform_eq_refused {ask : Ask} (hask : op.ask? = some ask)
    (hexceeded : machine.store.inner.1.Exceeded ask.layout.size) (other : Allocator σ) :
    op.perform other machine = (none, ⟨machine.memory,
      .budgetRefused ask.layout.size machine.store.inner.1.budget :: machine.trace,
      ⟨ask.call none :: machine.store.calls, machine.store.inner.1.recordRefused,
        machine.store.inner.2⟩⟩) := by
  have hfits := fits_eq_false_iff.2 hexceeded
  have hperformed := performed other machine op
  generalize op.perform other machine = out at hperformed ⊢
  cases hperformed with
  | asked hsame hnone hs =>
    obtain rfl := Option.some.inj (hsame.symm.trans hask)
    obtain ⟨served, hserved, rfl⟩ := Ask.recorded hs
    have haccounted := Ask.accounted hserved
    cases haccounted with
    | refused => rfl
    | answered _ hroom => exact absurd (hfits.symm.trans hroom) Bool.false_ne_true
  | moved f hsame hblock hs =>
    obtain rfl := Option.some.inj (hsame.symm.trans hask)
    obtain ⟨served, hserved, rfl⟩ := Ask.recorded hs
    exact absurd (hfits.symm.trans (Ask.accounted hserved).fits) Bool.false_ne_true
  | released hnone =>
    rw [hask] at hnone
    cases hnone
  | ignored | budgeted => cases hask

theorem serve_of_not_exceeded {ask : Ask} (hask : op.ask? = some ask)
    (hroom : ¬ machine.store.inner.1.Exceeded ask.layout.size) :
    ∃ served, ask.serve inner (machine.withStore machine.store.inner.2) =
      ((op.perform inner machine).1, served) := by
  rw [← fits_eq_false_iff] at hroom
  have hanswer : ∀ {result machine'},
      ask.serve inner.accounted.recorded machine = (result, machine') →
      ∃ served, ask.serve inner (machine.withStore machine.store.inner.2) = (result, served) := by
    intro result machine' hs
    obtain ⟨served, hserved, rfl⟩ := Ask.recorded hs
    have haccounted := Ask.accounted hserved
    cases haccounted with
    | refused hfits => exact absurd hfits hroom
    | answered hr => exact ⟨_, hr⟩
  have hperformed := performed inner machine op
  generalize op.perform inner machine = out at hperformed ⊢
  cases hperformed with
  | asked hsame hnone hs | moved f hsame hblock hs =>
    obtain rfl := Option.some.inj (hsame.symm.trans hask)
    exact hanswer hs
  | released hnone =>
    rw [hask] at hnone
    cases hnone
  | ignored | budgeted => cases hask

theorem heldBytes_le_of_served {ask : Ask} (h : Audited placement live machine.store)
    (hs : ask.serve inner.accounted.recorded machine = (some addr, machine'))
    (hlimit : machine.store.inner.1.budget = some limit) :
    heldBytes machine'.store.calls ≤ limit.toNat := by
  have hafter := h.asked hs
  obtain ⟨served, hserved, -⟩ := Ask.recorded hs
  have hle := le_of_fits (Ask.accounted hserved).fits hlimit
  have hout : machine.store.inner.1.stats.outstanding.toNat = bytesOut live :=
    h.holds.2.outstanding_eq
  rw [heldBytes_eq hafter.live_eq, granted_some, bytesOut_add, bytesOut_singleton]
  dsimp only [Machine.withStore] at hle ⊢
  omega

theorem not_cons_suffix {earlier : List Call} (hsince : calls <:+ earlier) :
    ¬ call :: earlier <:+ calls := fun hmade => by
  have hlength := hmade.length_le
  have hle := hsince.length_le
  rw [List.length_cons] at hlength
  omega

theorem eq_of_cons_suffix {last : Call} {earlier : List Call} (hsince : calls <:+ earlier)
    (hmade : call :: earlier <:+ last :: calls) : call :: earlier = last :: calls :=
  (List.suffix_cons_iff.1 hmade).resolve_right (not_cons_suffix hsince)

/-- Of the calls that an operation makes, one that is served leaves no more bytes out than the
budget. -/
theorem heldBytes_le (h : Audited placement live machine.store)
    (hp : op.perform inner machine = (result, machine'))
    (hlimit : machine.store.inner.1.budget = some limit) {earlier : List Call}
    (hsince : machine.store.calls <:+ earlier) (hmade : call :: earlier <:+ machine'.store.calls)
    (hserved : call.isServed = true) : heldBytes (call :: earlier) ≤ limit.toNat := by
  have hasked : ∀ {ask : Ask} {result between},
      ask.serve inner.accounted.recorded machine = (result, between) →
      call :: earlier <:+ between.store.calls → heldBytes (call :: earlier) ≤ limit.toNat := by
    intro ask result between hs hmade
    obtain ⟨served, -, rfl⟩ := Ask.recorded hs
    have hsame := eq_of_cons_suffix hsince hmade
    cases result with
    | none =>
      rw [(List.cons.inj hsame).1, Ask.isServed_call] at hserved
      cases hserved
    | some addr => exact hsame ▸ heldBytes_le_of_served h hs hlimit
  have hperformed := hp ▸ performed inner machine op
  cases hperformed with
  | asked hask hnone hs => exact hasked hs hmade
  | moved f hask hblock hs =>
    obtain hsame | hold := List.suffix_cons_iff.1 hmade
    · rw [(List.cons.inj hsame).1] at hserved
      cases hserved
    · exact hasked hs hold
  | released =>
    rw [(List.cons.inj (eq_of_cons_suffix hsince hmade)).1] at hserved
    cases hserved
  | ignored | budgeted => exact absurd hmade (not_cons_suffix hsince)

/-- The counters of a tracker are those of its blocks, over any inner allocator that hands out
blocks apart from each other. A request is refused if and only if the budget in force has no room
for it, or the inner allocator refuses it. -/
theorem accounts_for_blocks (placement : inner.Placement)
    (hstart : placement.shared.holds 0 start.store)
    (run : Run inner (fun live _ after => placement.shared.holds live after.store) start budget ops
      machine) (hlength : ops.length < 2 ^ 64) :
    ∃ tracker calls live, machine.store.inner.1 = tracker ∧ machine.store.calls = calls ∧
      outstanding? calls = some live ∧
      tracker.stats.allocations.toNat = tracker.stats.frees.toNat + live.card ∧
      tracker.stats.outstanding.toNat = bytesOut live ∧
      (∀ g ∈ live, g.layout.size ≤ tracker.stats.outstanding) ∧
      IsGreatest (heldBytes '' {earlier | earlier <:+ calls}) tracker.stats.peak.toNat ∧
      tracker.stats.failures.toNat = calls.countP Call.isRefused ∧
      tracker.budget = budgetInForce budget ops ∧
      (∀ limit, budget = some limit →
        (∀ other, Operation.setBudget other ∈ ops → other = some limit) →
        tracker.stats.peak ≤ limit) ∧
      ∀ op ask, Operation.ask? op = some ask →
        (tracker.Exceeded ask.layout.size → ∀ other : Allocator σ, op.perform other machine =
          (none, ⟨machine.memory, .budgetRefused ask.layout.size tracker.budget :: machine.trace,
            ⟨ask.call none :: calls, tracker.recordRefused, machine.store.inner.2⟩⟩)) ∧
        (¬ tracker.Exceeded ask.layout.size →
          ∃ served, ask.serve inner (machine.withStore machine.store.inner.2) =
            ((op.perform inner machine).1, served)) ∧
        ∀ limit, tracker.budget = some limit → ∀ call earlier, calls <:+ earlier →
          call :: earlier <:+ (op.perform inner machine).2.store.calls → call.isServed = true →
          heldBytes (call :: earlier) ≤ limit.toNat := by
  obtain ⟨live, h⟩ := run.audited hstart
  obtain ⟨hserved, hreleased, hrefused⟩ := run.countP_le
  have hout : machine.store.inner.1.stats.outstanding.toNat = bytesOut live :=
    h.holds.2.outstanding_eq
  refine ⟨_, _, live, rfl, rfl, h.live_eq, ?_, hout, fun g hg => ?_, h.peak, ?_, run.budget_eq,
    fun limit hbudget hconstant => ?_, fun op ask hask => ⟨fun hexceeded other => ?_, fun hroom => ?_,
      fun limit hlimit call earlier hsince hmade hcall => ?_⟩⟩
  · rw [h.allocations_eq, h.frees_eq,
      UInt64.toNat_ofNat_of_lt' (Nat.lt_of_le_of_lt hserved hlength),
      UInt64.toNat_ofNat_of_lt' (Nat.lt_of_le_of_lt hreleased hlength), h.card_eq]
  · obtain ⟨rest, rfl⟩ := Multiset.exists_cons_of_mem hg
    rw [UInt64.le_iff_toNat_le, hout, ← Multiset.singleton_add, bytesOut_add, bytesOut_singleton]
    exact Nat.le_add_right _ _
  · rw [h.failures_eq, UInt64.toNat_ofNat_of_lt' (Nat.lt_of_le_of_lt hrefused hlength)]
  · exact UInt64.le_iff_toNat_le.2 (run.capped hbudget hconstant).2
  · exact perform_eq_refused hask hexceeded other
  · exact serve_of_not_exceeded hask hroom
  · exact heldBytes_le h rfl hlimit hsince hmade hcall

/-- A block is moved within a budget that stays, after a move for which it had no room; and between
two other moves the budget is set below what is out and then above it again. -/
theorem accounts_for_blocks_moved :
    (∃ machine : Machine (Recorded (Tracker × Platform)),
      machine.store.inner.1.stats.failures = 1 ∧ machine.store.inner.1.stats.peak = 96 ∧
      machine.store.inner.1.stats.peak ≤ 100 ∧
      machine.store.inner.1.stats.allocations.toNat =
        machine.store.inner.1.stats.frees.toNat + 1) ∧
    ∃ lowered raised : Machine (Recorded (Tracker × Platform)),
      lowered.store.inner.1.budget = some 40 ∧ lowered.store.inner.1.stats.outstanding = 64 ∧
      (∀ other : Allocator Platform,
        ((Operation.realloc (some Window.base) ⟨64, .eight⟩ ⟨32, .eight⟩).perform other lowered).1 =
          none) ∧
      raised.store.inner.1.budget = some 200 ∧ raised.store.inner.1.stats.failures = 1 ∧
      raised.store.inner.1.stats.peak = 96 ∧
      raised.store.inner.1.stats.allocations.toNat =
        raised.store.inner.1.stats.frees.toNat + 1 := by
  have hstart : Platform.plainWindowContract.shared.holds 0
      ({ store := ⟨.ofCap 65536, {}⟩ } : Machine Platform).store := ⟨0, by decide, by decide, by simp⟩
  have hstarted : Run Platform.plainWindow
      (fun live _ after => Platform.plainWindowContract.shared.holds live after.store)
      { store := ⟨.ofCap 65536, {}⟩ } (some 100) [] _ := .start
  have hgiven := hstarted.perform (.alloc ⟨64, .eight⟩) (by simp [Operation.block?]) rfl
  constructor
  · have hrefused := hgiven.perform (.realloc (some Window.base) ⟨64, .eight⟩ ⟨48, .eight⟩)
      (by rintro g ⟨⟩; exact ⟨_, rfl, Multiset.mem_singleton_self _⟩) rfl
    have hmoved := hrefused.perform (.realloc (some Window.base) ⟨64, .eight⟩ ⟨32, .eight⟩)
      (by rintro g ⟨⟩; exact ⟨_, rfl, Multiset.mem_singleton_self _⟩) rfl
    obtain ⟨_, _, live, rfl, rfl, hlive, hcount, -, -, -, -, -, hpeak, -⟩ :=
      accounts_for_blocks Platform.plainWindowContract.toPlacement hstart hmoved (by simp)
    obtain rfl := Option.some.inj hlive
    exact ⟨_, rfl, rfl, hpeak 100 rfl (by simp), hcount⟩
  · have hlowered := hgiven.perform (.setBudget (some 40)) (by simp [Operation.block?]) rfl
    have hrefused := hlowered.perform (.realloc (some Window.base) ⟨64, .eight⟩ ⟨32, .eight⟩)
      (by rintro g ⟨⟩; exact ⟨_, rfl, Multiset.mem_singleton_self _⟩) rfl
    have hraised := hrefused.perform (.setBudget (some 200)) (by simp [Operation.block?]) rfl
    have hmoved := hraised.perform (.realloc (some Window.base) ⟨64, .eight⟩ ⟨32, .eight⟩)
      (by rintro g ⟨⟩; exact ⟨_, rfl, Multiset.mem_singleton_self _⟩) rfl
    obtain ⟨_, _, -, rfl, rfl, -, -, -, -, -, -, hforty, -, hasked⟩ :=
      accounts_for_blocks Platform.plainWindowContract.toPlacement hstart hlowered (by simp)
    obtain ⟨_, _, live, rfl, rfl, hlive, hcount, -, -, -, -, hbudget, -, -⟩ :=
      accounts_for_blocks Platform.plainWindowContract.toPlacement hstart hmoved (by simp)
    obtain rfl := Option.some.inj hlive
    refine ⟨_, _, hforty, rfl, fun other => ?_, hbudget, rfl, rfl, hcount⟩
    exact congrArg Prod.fst ((hasked (.realloc (some Window.base) ⟨64, .eight⟩ ⟨32, .eight⟩) _ rfl).1
      ⟨40, hforty, by decide⟩ other)

end Tracker

end Tally

end ArenaMemory
