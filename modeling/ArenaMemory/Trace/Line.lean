import ArenaMemory.Trace.Event

namespace ArenaMemory

def quotedText (s : String) : String := "\"" ++ s ++ "\""

namespace FieldValue

def display : FieldValue → String
  | .number n => toString n
  | .quoted s => quotedText s
  | .plain s => s

def json : FieldValue → String
  | .number n => toString n
  | .quoted s | .plain s => quotedText s

end FieldValue

namespace Event

def line (event : Event) : String :=
  event.level.name ++ " " ++ event.target ++ ": " ++ event.message ++
    String.join (event.fields.map fun (key, value) => " " ++ key ++ "=" ++ value.display)

def jsonLine (event : Event) : String :=
  let fields := ("message", FieldValue.plain event.message) :: event.fields
  let member (key value : String) : String := quotedText key ++ ":" ++ value
  let object (members : List String) : String := "\x7b" ++ ",".intercalate members ++ "\x7d"
  object [member "level" (quotedText event.level.name),
    member "fields" (object (fields.map fun (key, value) => member key value.json)),
    member "target" (quotedText event.target)]

end Event

end ArenaMemory
