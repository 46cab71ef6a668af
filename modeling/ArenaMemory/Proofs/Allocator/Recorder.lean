import ArenaMemory.Proofs.Allocator.Contract

namespace ArenaMemory

variable {σ : Type}

inductive Call where
  | alloc (layout : Layout) (result : Option Word)
  | zalloc (layout : Layout) (result : Option Word)
  | release (grant : Grant)
  | realloc (old : Grant) (new : Layout) (result : Option Word)

structure Recorded (σ : Type) where
  calls : List Call := []
  inner : σ

namespace Recorded

def run {α : Type} (action : Machine σ → α × Machine σ) (call : α → Call)
    (machine : Machine (Recorded σ)) : α × Machine (Recorded σ) :=
  let (result, inner) := action (machine.withStore machine.store.inner)
  (result, inner.withStore ⟨call result :: machine.store.calls, inner.store⟩)

end Recorded

/-- The allocator with a record of the calls that reach it. -/
def Allocator.recorded (inner : Allocator σ) : Allocator (Recorded σ) where
  stateless := inner.stateless
  alloc layout := Recorded.run (inner.alloc layout) (.alloc layout)
  release addr layout machine :=
    (Recorded.run (fun machine => ((), inner.release addr layout machine))
      (fun _ => .release ⟨addr, layout⟩) machine).2
  nativeRealloc := inner.nativeRealloc.map fun realloc addr old new =>
    Recorded.run (realloc addr old new) (.realloc ⟨addr, old⟩ new)
  nativeZalloc := inner.nativeZalloc.map fun zalloc layout =>
    Recorded.run (zalloc layout) (.zalloc layout)

/-- The blocks that are out after a call. Only a block that is out can be given back or moved, by
its very address and layout. -/
def Call.settle? (out : Multiset Grant) : Call → Option (Multiset Grant)
  | .alloc layout result | .zalloc layout result => some (granted result layout + out)
  | .release grant => if grant ∈ out then some (out.erase grant) else none
  | .realloc old new result =>
    if old ∈ out then
      if result = none ∧ new.size = 0 then some (out.erase old)
      else some ({Allocator.moved old.addr old.layout new result} + out.erase old)
    else none

/-- The blocks that are outstanding after calls, if none of the calls gave back or moved a block
that was not. -/
def outstanding? : List Call → Option (Multiset Grant)
  | [] => some 0
  | call :: earlier => (outstanding? earlier).bind fun out => call.settle? out

variable {calls newer earlier : List Call} {out : Multiset Grant} {g : Grant}

theorem outstanding?_cons {call : Call} (h : outstanding? calls = some out) :
    outstanding? (call :: calls) = call.settle? out := by
  rw [outstanding?, h, Option.bind_some]

theorem outstanding?_release (h : outstanding? calls = some ({g} + out)) :
    outstanding? (.release g :: calls) = some out := by
  rw [outstanding?_cons h, Multiset.singleton_add, Call.settle?,
    if_pos (Multiset.mem_cons_self g out), Multiset.erase_cons_head]

def Call.taken? : Call → Option Grant
  | .alloc .. | .zalloc .. => none
  | .release grant => some grant
  | .realloc old .. => some old

theorem Call.mem_of_settle? {call : Call} (h : call.settle? out ≠ none) (hg : call.taken? = some g) :
    g ∈ out := by
  cases call with
  | alloc | zalloc => cases hg
  | release grant | realloc old new result =>
    obtain rfl := Option.some.inj hg
    by_contra hout
    simp only [settle?, if_neg hout, ne_eq, not_true] at h

/-- Every block that was given back or moved was outstanding just before. -/
theorem held_of_taken {call : Call} (h : outstanding? (newer ++ call :: earlier) = some out)
    (hg : call.taken? = some g) :
    ∃ held, outstanding? earlier = some held ∧ g ∈ held := by
  induction newer generalizing out with
  | nil =>
    obtain ⟨held, hheld, hs⟩ := Option.bind_eq_some_iff.1 h
    exact ⟨held, hheld, Call.mem_of_settle? (by simp [hs]) hg⟩
  | cons later newer ih =>
    obtain ⟨between, hbetween, -⟩ := Option.bind_eq_some_iff.1 h
    exact ih hbetween

theorem held_of_released (h : outstanding? (newer ++ .release g :: earlier) = some out) :
    ∃ held, outstanding? earlier = some held ∧ g ∈ held :=
  held_of_taken h rfl

def Call.given : Call → Multiset Grant
  | .alloc layout result | .zalloc layout result => granted result layout
  | .release _ => 0
  | .realloc _ new result => granted result new

/-- The block that a call took back. One that could not be moved stays, unless there was nothing to
move it to. -/
def Call.returned : Call → Multiset Grant
  | .alloc .. | .zalloc .. => 0
  | .release grant => {grant}
  | .realloc old new result => if result = none ∧ new.size ≠ 0 then 0 else {old}

theorem Call.given_add {call : Call} {after : Multiset Grant} (h : call.settle? out = some after) :
    call.given + out = after + call.returned := by
  cases call with
  | alloc layout result | zalloc layout result =>
    obtain rfl := Option.some.inj h
    rw [given, returned, add_zero]
  | release grant =>
    rw [settle?] at h
    split at h
    next hin =>
      obtain rfl := Option.some.inj h
      rw [given, returned, zero_add, add_comm, Multiset.singleton_add, Multiset.cons_erase hin]
    · cases h
  | realloc old new result =>
    rw [settle?] at h
    split at h
    next hin =>
      have hout : {old} + out.erase old = out := by
        rw [Multiset.singleton_add, Multiset.cons_erase hin]
      split at h
      next hgone =>
        obtain rfl := Option.some.inj h
        rw [given, returned, hgone.1, granted_none, zero_add, if_neg (fun he => he.2 hgone.2),
          add_comm, hout]
      next hkept =>
        obtain rfl := Option.some.inj h
        cases result with
        | none =>
          rw [given, returned, granted_none, zero_add, if_pos ⟨rfl, fun he => hkept ⟨rfl, he⟩⟩,
            add_zero, Allocator.moved, hout]
        | some fresh =>
          rw [given, returned, granted_some, if_neg (by simp), Allocator.moved, add_assoc,
            add_comm (out.erase old), hout]
    · cases h

/-- No call takes a block that is not out at the time, and what was handed out is what is still out
and what went back. -/
structure Balanced (calls : List Call) (out : Multiset Grant) : Prop where
  outstanding_eq : outstanding? calls = some out
  takes_held : ∀ newer call earlier g, calls = newer ++ call :: earlier → call.taken? = some g →
    ∃ held, outstanding? earlier = some held ∧ g ∈ held
  given_eq : (calls.map Call.given).sum = out + (calls.map Call.returned).sum

theorem sum_given (h : outstanding? calls = some out) :
    (calls.map Call.given).sum = out + (calls.map Call.returned).sum := by
  induction calls generalizing out with
  | nil =>
    obtain rfl := Option.some.inj h
    rfl
  | cons call calls ih =>
    obtain ⟨before, hbefore, hs⟩ := Option.bind_eq_some_iff.1 h
    rw [List.map_cons, List.map_cons, List.sum_cons, List.sum_cons, ih hbefore, ← add_assoc,
      Call.given_add hs, add_assoc]

theorem balanced (h : outstanding? calls = some out) : Balanced calls out where
  outstanding_eq := h
  takes_held := by
    rintro newer call earlier g rfl hg
    exact held_of_taken h hg
  given_eq := sum_given h

def Allocator.recordedLedger (inner : Allocator σ) : inner.recorded.Ledger where
  holds out store := outstanding? store.calls = some out
  alloc h ha := by
    obtain ⟨rfl, rfl⟩ := Prod.mk.inj ha
    exact outstanding?_cons h
  release h := outstanding?_release h
  nativeRealloc := by
    intro _ hnative out addr old new machine result machine' hnew h hr
    obtain ⟨realloc, -, rfl⟩ := Option.map_eq_some_iff.1 hnative
    obtain ⟨rfl, rfl⟩ := Prod.mk.inj hr
    have hne : new.size ≠ 0 := fun he => by simp [he] at hnew
    refine (outstanding?_cons h).trans ?_
    rw [Multiset.singleton_add, Call.settle?, if_pos (Multiset.mem_cons_self _ _),
      if_neg (fun he => hne he.2), Multiset.erase_cons_head]
  nativeZalloc := by
    intro _ hnative out layout machine result machine' h hz
    obtain ⟨zalloc, -, rfl⟩ := Option.map_eq_some_iff.1 hnative
    obtain ⟨rfl, rfl⟩ := Prod.mk.inj hz
    exact outstanding?_cons h

def Allocator.Placement.recorded {inner : Allocator σ} (placement : inner.Placement) :
    inner.recorded.Placement where
  holds out store := placement.holds out store.inner
  alloc h ha := by
    obtain ⟨rfl, rfl⟩ := Prod.mk.inj ha
    exact placement.alloc h rfl
  release h := placement.release h
  nativeRealloc := by
    intro _ hnative out addr old new machine result machine' hnew h hr
    obtain ⟨realloc, hinner, rfl⟩ := Option.map_eq_some_iff.1 hnative
    obtain ⟨rfl, rfl⟩ := Prod.mk.inj hr
    exact placement.nativeRealloc hinner hnew h rfl
  nativeZalloc := by
    intro _ hnative out layout machine result machine' h hz
    obtain ⟨zalloc, hinner, rfl⟩ := Option.map_eq_some_iff.1 hnative
    obtain ⟨rfl, rfl⟩ := Prod.mk.inj hz
    exact placement.nativeZalloc hinner h rfl
  alloc_fresh h hpos ha := placement.alloc_fresh h hpos (Prod.ext (Prod.mk.inj ha).1 rfl)
  realloc_fresh := by
    intro _ hnative out addr old new machine fresh machine' hnew h hr
    obtain ⟨realloc, hinner, rfl⟩ := Option.map_eq_some_iff.1 hnative
    exact placement.realloc_fresh hinner hnew h (Prod.ext (Prod.mk.inj hr).1 rfl)
  zalloc_fresh := by
    intro _ hnative out layout machine addr machine' h hpos hz
    obtain ⟨zalloc, hinner, rfl⟩ := Option.map_eq_some_iff.1 hnative
    exact placement.zalloc_fresh hinner h hpos (Prod.ext (Prod.mk.inj hz).1 rfl)

def Allocator.Contract.recorded {inner : Allocator σ} (contract : inner.Contract) :
    inner.recorded.Contract where
  toPlacement := contract.toPlacement.recorded
  alloc_keeps := by
    intro out layout machine result machine' h ha
    change contract.holds out machine.store.inner at h
    obtain ⟨rfl, rfl⟩ := Prod.mk.inj ha
    exact contract.alloc_keeps h rfl
  release_keeps h := contract.release_keeps h
  realloc_keeps := by
    intro _ hnative out addr old new machine result machine' hnew h hr
    obtain ⟨realloc, hinner, rfl⟩ := Option.map_eq_some_iff.1 hnative
    change contract.holds ({⟨addr, old⟩} + out) machine.store.inner at h
    obtain ⟨rfl, rfl⟩ := Prod.mk.inj hr
    exact contract.realloc_keeps hinner hnew h rfl
  realloc_refused := by
    intro _ hnative out addr old new machine machine' hnew h hr
    obtain ⟨realloc, hinner, rfl⟩ := Option.map_eq_some_iff.1 hnative
    change contract.holds ({⟨addr, old⟩} + out) machine.store.inner at h
    obtain ⟨hresult, rfl⟩ := Prod.mk.inj hr
    exact contract.realloc_refused hinner hnew h (Prod.ext hresult rfl)
  realloc_moves := by
    intro _ hnative out addr old new machine fresh machine' hnew h hr
    obtain ⟨realloc, hinner, rfl⟩ := Option.map_eq_some_iff.1 hnative
    change contract.holds ({⟨addr, old⟩} + out) machine.store.inner at h
    obtain ⟨hresult, rfl⟩ := Prod.mk.inj hr
    exact contract.realloc_moves hinner hnew h (Prod.ext hresult rfl)
  zalloc_keeps := by
    intro _ hnative out layout machine result machine' h hz
    obtain ⟨zalloc, hinner, rfl⟩ := Option.map_eq_some_iff.1 hnative
    change contract.holds out machine.store.inner at h
    obtain ⟨rfl, rfl⟩ := Prod.mk.inj hz
    exact contract.zalloc_keeps hinner h rfl
  zalloc_zeroes := by
    intro _ hnative out layout machine addr machine' h hpos hz
    obtain ⟨zalloc, hinner, rfl⟩ := Option.map_eq_some_iff.1 hnative
    change contract.holds out machine.store.inner at h
    obtain ⟨hresult, rfl⟩ := Prod.mk.inj hz
    exact contract.zalloc_zeroes hinner h hpos (Prod.ext hresult rfl)

end ArenaMemory
