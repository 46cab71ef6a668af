import ArenaMemory.Regex.Basic
import ArenaMemory.Text.Character

namespace ArenaMemory.Regex

def skipSpace (inComment : Bool) : List Char → List Char
  | [] => []
  | c :: rest =>
    if inComment then skipSpace (c ≠ '\n') rest
    else if isWhite c then skipSpace false rest
    else if c = '#' then skipSpace true rest
    else c :: rest

/-- What is next in a text, in which space may mean nothing. -/
def ahead (spaced : Bool) (text : List Char) : List Char :=
  if spaced then skipSpace false text else text

def hexDigits? (spaced : Bool) : Nat → List Char → Option (List Char × List Char)
  | 0, text => some ([], text)
  | _ + 1, [] => none
  | count + 1, c :: rest =>
    if isHexDigit c then
      (hexDigits? spaced count (ahead spaced rest)).map fun (digits, rest) => (c :: digits, rest)
    else none

def hexCode? (spaced : Bool) (count : Nat) (text : List Char) : Option (Char × List Char) := do
  let (digits, rest) ← hexDigits? spaced count (ahead spaced text)
  (charOfHex? digits).map fun c => (c, rest)

def isQuotable (c : Char) : Bool :=
  c.toNat < 0x80 && !c.isAlphanum

/-- The atom of an escape, behind its backslash. Properties of characters are not known. -/
def escape? (spaced : Bool) : List Char → Option (Atom × List Char)
  | [] => none
  | c :: rest =>
    match c with
    | 'x' => (hexCode? spaced 2 rest).map fun (c, rest) => (.code c, rest)
    | 'u' => (hexCode? spaced 4 rest).map fun (c, rest) => (.char c, rest)
    | 'U' => (hexCode? spaced 8 rest).map fun (c, rest) => (.char c, rest)
    | 'd' | 's' | 'w' => some (.category false, rest)
    | 'D' | 'S' | 'W' => some (.category true, rest)
    | 'a' => some (.char '\x07', rest)
    | 'f' => some (.char '\x0c', rest)
    | 't' => some (.char '\t', rest)
    | 'n' => some (.char '\n', rest)
    | 'r' => some (.char '\r', rest)
    | 'v' => some (.char '\x0b', rest)
    | 'A' | 'z' => some (.edge, rest)
    | 'b' | 'B' | '<' | '>' => some (.wordEdge, rest)
    | c => if isQuotable c then some (.char c, rest) else none

end ArenaMemory.Regex
