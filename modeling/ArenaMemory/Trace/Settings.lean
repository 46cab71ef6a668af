import ArenaMemory.Trace.Filter

namespace ArenaMemory

structure Environment where
  assigned : List (String × List UInt8) := []

/-- The text of a variable; one that is not UTF-8 counts as unset. -/
def Environment.text? (env : Environment) (name : String) : Option (List Char) :=
  (env.assigned.lookup name).bind textOfBytes?

structure LogSettings where
  level : Level := .info
  fileOutput : Bool := false
  logPath : Option String := none
  jsonFormat : Bool := false
  /-- Tell when a span of work begins and ends. There are no such spans so far. -/
  showSpans : Bool := false
deriving DecidableEq

namespace LogSettings

def performance : LogSettings := { level := .error }

def debug : LogSettings :=
  { level := .trace, fileOutput := true, logPath := some "strata.log", showSpans := true }

/-- The settings that the environment asks for. Of two variables only the presence counts. -/
def ofEnvironment (env : Environment) : LogSettings where
  level := ((env.text? "STRATA_LOG_LEVEL").bind Level.ofName?).getD .info
  fileOutput := (env.text? "STRATA_LOG_FILE").isSome
  logPath := (env.text? "STRATA_LOG_FILE").map String.ofList
  jsonFormat := (env.text? "STRATA_LOG_JSON").isSome
  showSpans := (env.text? "STRATA_LOG_SPANS").isSome

end LogSettings

end ArenaMemory
