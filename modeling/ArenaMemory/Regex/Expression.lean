import ArenaMemory.Regex.Members

namespace ArenaMemory.Regex

/-- Switches up to the colon or parenthesis behind them. No flag is named twice, there is one minus
sign at most, and a flag follows it. -/
def switches? (negated : Bool) (switches : Switches) : List Char → Option (Switches × List Char)
  | [] => none
  | ':' :: rest => some (switches, ':' :: rest)
  | ')' :: rest => some (switches, ')' :: rest)
  | '-' :: rest =>
    if negated || rest.head? = some ':' || rest.head? = some ')' then none
    else switches? true switches rest
  | c :: rest =>
    match Flag.ofChar? c with
    | none => none
    | some flag =>
      if switches.mentions flag then none
      else if negated then switches? true { switches with off := flag :: switches.off } rest
      else switches? false { switches with on := flag :: switches.on } rest

def isGroupName : List Char → Bool
  | [] => false
  | first :: others =>
    (first = '_' || isAlphabetic first) &&
      others.all fun c => c = '_' || c = '.' || c = '[' || c = ']' || isAlphanumeric c

inductive Opening where
  | group (name : Option (List Char)) (switches : Switches)
  /-- Parentheses around switches alone, which are closed already. -/
  | setting (switches : Switches)

def namedOpening? (text : List Char) : Option (Opening × List Char) :=
  let name := text.takeWhile (· ≠ '>')
  match text.dropWhile (· ≠ '>') with
  | _ :: rest => if isGroupName name then some (.group (some name) {}, rest) else none
  | [] => none

/-- The beginning of a group behind its parenthesis. Looking ahead and behind is not known. -/
def opening? : List Char → Option (Opening × List Char)
  | '?' :: '<' :: '!' :: _ | '?' :: '<' :: '=' :: _ => none
  | '?' :: 'P' :: '<' :: rest | '?' :: '<' :: rest => namedOpening? rest
  | '?' :: rest =>
    match switches? false {} rest with
    | some (switches, ':' :: rest) => some (.group none switches, rest)
    | some (switches, _ :: rest) =>
      if switches.on.isEmpty && switches.off.isEmpty then none else some (.setting switches, rest)
    | _ => none
  | text => some (.group none {}, text)

def atom? (spaced : Bool) : List Char → Option (Atom × List Char)
  | [] => none
  | '\\' :: rest => escape? spaced rest
  | '.' :: rest => some (.dot, rest)
  | '^' :: rest | '$' :: rest => some (.edge, rest)
  | c :: rest => some (.char c, rest)

/-- The choice between branches and, as the last, some parts in a row; both are newest first. -/
def gather (branches parts : List Regex) : Regex :=
  ofBranches (ofParts parts.reverse :: branches).reverse

/-- Reads up to the end of the group or of the text. The branches read before and the parts of the
last one are newest first; `fuel` is more than the length of the text. -/
def expression? : Nat → Bool → List Regex → List Regex → List Char → Option (Regex × List Char)
  | 0, _, _, _, _ => none
  | fuel + 1, spaced, branches, parts, text =>
    match ahead spaced text with
    | [] => some (gather branches parts, [])
    | ')' :: rest => some (gather branches parts, ')' :: rest)
    | '|' :: rest => expression? fuel spaced (ofParts parts.reverse :: branches) [] rest
    | '(' :: rest =>
      match opening? (ahead spaced rest) with
      | none => none
      | some (.setting switches, rest) =>
        expression? fuel (switches.apply .spaced spaced) branches (.setting switches :: parts) rest
      | some (.group name switches, rest) =>
        match expression? fuel (switches.apply .spaced spaced) [] [] rest with
        | some (body, ')' :: rest) =>
          expression? fuel spaced branches (.group name switches body :: parts) rest
        | _ => none
    | '[' :: rest =>
      match set? spaced fuel rest with
      | none => none
      | some (set, rest) => expression? fuel spaced branches (set :: parts) rest
    | '{' :: _ => none
    | c :: rest =>
      if c = '*' || c = '+' || c = '?' then
        match parts with
        | [] => none
        | part :: parts =>
          let rest := if rest.head? = some '?' then rest.drop 1 else rest
          if part.isRepeatable then expression? fuel spaced branches (.repetition part :: parts) rest
          else none
      else
        match atom? spaced (c :: rest) with
        | none => none
        | some (atom, rest) => expression? fuel spaced branches (.one atom :: parts) rest

def ofText? (text : List Char) : Option Regex :=
  match expression? (text.length + 1) false [] [] text with
  | some (regex, []) => some regex
  | _ => none

end ArenaMemory.Regex
