import ArenaMemory.Regex.Atom

namespace ArenaMemory.Regex

def setNames : List String :=
  ["alnum", "alpha", "ascii", "blank", "cntrl", "digit", "graph", "lower", "print", "punct", "space",
    "upper", "word", "xdigit"]

def namedSet? : List Char → Option (Members × List Char)
  | ':' :: text =>
    let negated := text.head? = some '^'
    let text := if negated then text.drop 1 else text
    let name := text.takeWhile (· ≠ ':')
    match text.dropWhile (· ≠ ':') with
    | ':' :: ']' :: rest =>
      if setNames.any (·.toList = name) then some (.named negated, rest) else none
    | _ => none
  | _ => none

/-- The first character that means something, when a comment means nothing up to its first word. -/
def firstMark? (inComment : Bool) : List Char → Option Char
  | [] => none
  | c :: rest =>
    if isWhite c then firstMark? inComment rest
    else if c = '#' && !inComment then firstMark? true rest
    else some c

def behindHyphen? (spaced : Bool) (text : List Char) : Option Char :=
  if spaced then (firstMark? false text).or text.head? else text.head?

def member? (spaced : Bool) : List Char → Option (Atom × List Char)
  | [] => none
  | '\\' :: rest => escape? spaced rest
  | c :: rest => some (.char c, rest)

/-- A character or a range. A hyphen in front of a bracket or of another hyphen makes none. -/
def characterOrRange? (spaced : Bool) (text : List Char) : Option (Members × List Char) := do
  let (first, rest) ← member? spaced text
  let single : Option (Members × List Char) :=
    match first with
    | .edge | .wordEdge => none
    | _ => some (.atom first, rest)
  match ahead spaced rest with
  | '-' :: behind =>
    let mark := behindHyphen? spaced behind
    if mark = some ']' || mark = some '-' then single
    else
      let (last, rest) ← member? spaced (ahead spaced behind)
      let c ← first.char?
      let d ← last.char?
      if c.toNat ≤ d.toNat then some (.range c d, rest) else none
  | _ => single

/-- The hyphens at the start of a set stand for themselves; `fuel` is more than the length. -/
def hyphens (spaced : Bool) : Nat → List Char → List Members × List Char
  | fuel + 1, '-' :: rest =>
    let (others, rest) := hyphens spaced fuel (ahead spaced rest)
    (.atom (.char '-') :: others, rest)
  | _, text => ([], text)

/-- The start of a set behind its bracket, with the members that mean something else further on. A
closing bracket that comes first is a member. -/
def setStart (spaced : Bool) (fuel : Nat) (text : List Char) : Bool × List Members × List Char :=
  let text := ahead spaced text
  let negated := text.head? = some '^'
  let text := if negated then ahead spaced (text.drop 1) else text
  match hyphens spaced fuel text with
  | ([], ']' :: rest) => (negated, [.atom (.char ']')], ahead spaced rest)
  | (found, rest) => (negated, found, rest)

def combine (left : Option Members) (found : List Members) : Members :=
  let right := Members.ofList found.reverse
  match left with
  | none => right
  | some left => .combination left right

def members? (spaced : Bool) : Nat → Option Members → List Members → List Char →
    Option (Members × List Char)
  | 0, _, _, _ => none
  | fuel + 1, left, found, text =>
    match ahead spaced text with
    | [] => none
    | ']' :: rest => some (combine left found, rest)
    | '&' :: '&' :: rest | '-' :: '-' :: rest | '~' :: '~' :: rest =>
      members? spaced fuel (some (combine left found)) [] rest
    | '[' :: rest =>
      match namedSet? rest with
      | some (named, rest) => members? spaced fuel left (named :: found) rest
      | none =>
        let (negated, inner, rest) := setStart spaced fuel rest
        match members? spaced fuel none inner rest with
        | none => none
        | some (inner, rest) => members? spaced fuel left (.set negated inner :: found) rest
    | text =>
      match characterOrRange? spaced text with
      | none => none
      | some (item, rest) => members? spaced fuel left (item :: found) rest

def set? (spaced : Bool) (fuel : Nat) (text : List Char) : Option (Regex × List Char) :=
  let (negated, found, rest) := setStart spaced fuel text
  (members? spaced fuel none found rest).map fun (members, rest) => (.oneOf negated members, rest)

end ArenaMemory.Regex
