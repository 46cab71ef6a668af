import ArenaMemory.Text.Character
import ArenaMemory.Text.Parts
import ArenaMemory.Trace.Event
import ArenaMemory.Trace.Pattern

namespace ArenaMemory

def numeral? (text : List Char) : Option Nat :=
  let digits := if text.head? = some '+' then text.drop 1 else text
  if digits.isEmpty || !digits.all Char.isDigit then none else some (ofDigits 10 digits digitValue)

namespace Level

def ofName? (name : List Char) : Option Level :=
  all.find? fun level => level.lowerName.toList = name.map Char.toLower

def ofText? (text : List Char) : Option Level :=
  match numeral? text with
  | some n => all.find? fun level => level.detail = n
  | none => ofName? text

end Level

abbrev Threshold := Option Level

namespace Threshold

def ofText? (text : List Char) : Option Threshold :=
  if numeral? text = some 0 || text.map Char.toLower = ['o', 'f', 'f'] then some none
  else (Level.ofText? text).map some

def admits (threshold : Threshold) (level : Level) : Bool :=
  threshold.any fun most => level.detail ≤ most.detail

end Threshold

/-- What a directive asks for beside the target. -/
inductive Subject where
  | anything
  | field (name : List Char)
  | span
deriving DecidableEq

namespace Subject

def includes (subject : Subject) (event : Event) : Bool :=
  match subject with
  | .anything => true
  | .field name => name ∈ event.fieldNames.map String.toList
  | .span => false

def field? : Subject → Option (List Char)
  | .field name => some name
  | _ => none

/-- The subject of a field in braces, which may also ask for a value. Values are looked at within
spans only. -/
def ofField? (text : List Char) : Option Subject :=
  if text.isEmpty then none
  else
    match parts '=' text with
    | _ :: value :: _ => if Pattern.isWellFormed value then some .span else none
    | _ => some (.field text)

end Subject

structure Directive where
  /-- Targets that start like this are covered. -/
  target : List Char := []
  subject : Subject := .anything
  threshold : Threshold

namespace Directive

/-- What stands from one position up to another. Positions count bytes, and there is no text if one
is within a character. -/
def cut? (text : List UInt8) (start stop : Nat) : Option (List Char) :=
  textOfBytes? ((text.drop start).take (stop - start))

def seek (text : List UInt8) (start : Nat) (marks : List Char) : Nat :=
  start + (text.drop start).findIdx fun byte => marks.any fun mark => mark.toNat = byte.toNat

def hasMark (text : List UInt8) (position : Nat) (mark : Char) : Bool :=
  text[position]?.any fun byte => byte.toNat = mark.toNat

def isFirstChar (c : Char) : Bool :=
  c = '[' || c = '-' || c = ':' || c = '_' || isAlphanumeric c

/-- The threshold behind an equals sign; nothing there lets everything through. -/
def thresholdAfter? (text : List UInt8) (mark : Nat) : Option Threshold := do
  let rest ← cut? text (mark + 1) text.length
  if rest.isEmpty then some (some .trace) else Threshold.ofText? rest

/-- The subject in brackets that open at a position, and the position behind them. A name alone is
that of a span. -/
def subject? (text body : List UInt8) (bracket : Nat) : Option (Subject × Nat) := do
  let start := bracket + 1
  let stop := seek body start [']', '\x7b']
  let span ← cut? text start stop
  if stop = body.length then none
  else if hasMark body stop ']' then some (.span, stop + 1)
  else
    let brace := seek body (stop + 1) ['\x7d']
    if hasMark body (brace + 1) ']' then
      let subject ← Subject.ofField? (← cut? text (stop + 1) brace)
      some (if span.isEmpty then subject else .span, brace + 2)
    else none

/-- Reads a directive. Its marks are looked for without the white space around it, but what they set
off is cut from the text as it stands. -/
def ofText? (chars : List Char) : Option Directive := do
  let text := bytesOfText chars
  let body := bytesOfText (trim chars)
  let mark := seek body 0 ['=', '[']
  if !(trim chars).head?.any isFirstChar then none
  else if mark = body.length then
    match Threshold.ofText? chars with
    | some threshold => some { threshold }
    | none => some { target := chars, threshold := some .trace }
  else
    let target ← cut? text 0 mark
    if hasMark body mark '=' then
      let threshold ← thresholdAfter? text mark
      some { target, threshold }
    else
      let (subject, stop) ← subject? text body mark
      if stop = body.length then some { target, subject, threshold := some .trace }
      else if hasMark body stop '=' then
        let threshold ← thresholdAfter? text stop
        some { target, subject, threshold }
      else none

def covers (directive : Directive) (event : Event) : Bool :=
  directive.target.isPrefixOf event.target.toList && directive.subject.includes event

/-- Of two directives that cover an event the second is at least as special, by its target, its
fields and their names. -/
def yieldsTo (first second : Directive) : Bool :=
  first.target.length < second.target.length ||
    (first.target.length = second.target.length &&
      match first.subject.field?, second.subject.field? with
      | none, _ => true
      | some _, none => false
      | some a, some b => !List.lex b a fun c d => c.toNat < d.toNat)

end Directive

end ArenaMemory
