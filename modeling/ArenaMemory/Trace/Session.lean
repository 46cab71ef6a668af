import ArenaMemory.Trace.Log
import ArenaMemory.World.Run

namespace ArenaMemory

structure Session where
  /-- Whether the log was set up before and after the settings were given. -/
  before : Bool
  after : Bool
  outcomes : List Outcome
  final : Outcome
  files : List (List Name × List String)
  errorStream : List String

/-- Gives settings one after the other, of which the first ones count, and runs steps. What happens
to the objects left at the end is logged, too. -/
def Session.run (env : Environment) (settings : List LogSettings) (cap : Word)
    (steps : List Step) : Session :=
  let log := settings.foldl (fun log settings => some (Log.setUp env settings log)) none
  let (outcomes, final) := World.runAll cap steps
  let events := outcomes.flatMap (·.events) ++ final.events
  { before := false
    after := log.isSome
    outcomes
    final
    files := log.elim [] (·.files events)
    errorStream := log.elim [] (·.errorStream events) }

end ArenaMemory
