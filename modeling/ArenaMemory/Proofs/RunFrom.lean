import ArenaMemory.Machine

namespace ArenaMemory

variable {σ Op Answer State : Type}

/-- The states that may follow one: operations are performed, each allowed where it is, and others
act in between. The operations stand with their answers, the latest first. -/
inductive RunFrom (perform : Op → State → Machine σ → Answer × State × Machine σ)
    (allowed : Op → State → Machine σ → Prop) (others : State → Machine σ → Machine σ → Prop)
    (state : State) (machine : Machine σ) : List (Op × Answer) → State → Machine σ → Prop where
  | nothing : RunFrom perform allowed others state machine [] state machine
  | perform {events before between answer after later} (op : Op) :
      RunFrom perform allowed others state machine events before between →
      allowed op before between → perform op before between = (answer, after, later) →
      RunFrom perform allowed others state machine ((op, answer) :: events) after later
  | others {events after between later} :
      RunFrom perform allowed others state machine events after between →
      others after between later →
      RunFrom perform allowed others state machine events after later

variable {perform : Op → State → Machine σ → Answer × State × Machine σ}
  {allowed : Op → State → Machine σ → Prop} {others : State → Machine σ → Machine σ → Prop}
  {state after : State} {machine later : Machine σ} {events : List (Op × Answer)}

theorem RunFrom.preserves (run : RunFrom perform allowed others state machine events after later)
    (invariant : State → Machine σ → Prop) (start : invariant state machine)
    (performed : ∀ {op before between answer after later}, invariant before between →
      allowed op before between → perform op before between = (answer, after, later) →
      invariant after later)
    (aside : ∀ {after between later}, invariant after between → others after between later →
      invariant after later) :
    invariant after later := by
  induction run with
  | nothing => exact start
  | perform op _ hallowed hp ih => exact performed ih hallowed hp
  | others _ ho ih => exact aside ih ho

end ArenaMemory
