import ArenaMemory.Text.Path
import ArenaMemory.Trace.Line
import ArenaMemory.Trace.Settings

namespace ArenaMemory

inductive LogPlace where
  | errorStream
  | file (names : List Name)
  | elsewhere

structure Log where
  filter : Filter
  jsonFormat : Bool
  place : LogPlace

/-- The file of a path. A path that does not end in a name is a directory for `strata.log`; without
any name that is the working directory. -/
def LogPlace.ofPath (text : List Char) : LogPlace :=
  let path := Path.ofText text
  let standard : Name := "strata.log".toList
  let names :=
    match path.names.getLast? with
    | none => some [standard]
    | some last =>
      if last = Name.up then { path with steps := path.names.dropLast ++ [standard] }.resolve?
      else path.resolve?
  names.elim .elsewhere .file

namespace Log

/-- The filter is taken from `RUST_LOG` if that holds one; else the settings' level counts. -/
def ofSettings (env : Environment) (settings : LogSettings) : Log where
  filter := ((env.text? "RUST_LOG").bind Filter.ofText?).getD (.upTo "strata" settings.level)
  jsonFormat := settings.jsonFormat
  place :=
    match settings.fileOutput, settings.logPath with
    | true, some path => .ofPath path.toList
    | _, _ => .errorStream

def setUp (env : Environment) (settings : LogSettings) : Option Log → Log
  | some log => log
  | none => ofSettings env settings

def format (log : Log) (event : Event) : String :=
  if log.jsonFormat then event.jsonLine else event.line

def lines (log : Log) (events : List Event) : List String :=
  (events.filter log.filter.admits).map log.format

def files (log : Log) (events : List Event) : List (List Name × List String) :=
  match log.place with
  | .file names => [(names, log.lines events)]
  | _ => []

def errorStream (log : Log) (events : List Event) : List String :=
  match log.place with
  | .errorStream => log.lines events
  | _ => []

end Log

end ArenaMemory
