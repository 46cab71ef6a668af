import ArenaMemory.Toml.Scalar
import ArenaMemory.Toml.Text

namespace ArenaMemory.Toml

def skipBlanks (input : List Char) : List Char := input.dropWhile isBlank

def isBareKeyChar (c : Char) : Bool :=
  isDecimalDigit c || ('a' ≤ c && c ≤ 'z') || ('A' ≤ c && c ≤ 'Z') || c = '_' || c = '-'

/-- One part of a key: a bare word, or a text on one line; `fuel` is more than the length of that
text. -/
def keyPart? (fuel : Nat) (input : List Char) : Option (String × List Char) :=
  match input with
  | '"' :: rest => (basicText? fuel rest).map fun (text, rest) => (.ofList text, rest)
  | '\'' :: rest => (literalText? rest).map fun (text, rest) => (.ofList text, rest)
  | _ =>
    let word := input.takeWhile isBareKeyChar
    if word.isEmpty then none else some (.ofList word, input.dropWhile isBareKeyChar)

/-- The longest key and the deepest value that are read have one level less. -/
def depthLimit : Nat := 80

def keyParts? (fuel : Nat) : Nat → List Char → Option (List String × List Char)
  | 0, _ => none
  | count + 1, input =>
    match keyPart? fuel (skipBlanks input) with
    | none => none
    | some (part, rest) =>
      match skipBlanks rest with
      | '.' :: rest => (keyParts? fuel count rest).map fun (parts, rest) => (part :: parts, rest)
      | rest => some ([part], rest)

def key? (fuel : Nat) (input : List Char) : Option (List String × String × List Char) :=
  match keyParts? fuel (depthLimit - 1) input with
  | none => none
  | some (parts, rest) => parts.getLast?.map fun key => (parts.dropLast, key, rest)

def skipComment : List Char → List Char
  | '#' :: rest => rest.dropWhile isPrintable
  | rest => rest

def lineEnd? (input : List Char) : Option (List Char) :=
  match skipComment (skipBlanks input) with
  | [] => some []
  | rest => afterNewline? rest

def skipLines : Nat → List Char → List Char
  | 0, input => input
  | fuel + 1, input =>
    let input := skipBlanks input
    let behind := skipComment input
    match afterNewline? behind with
    | some rest => skipLines fuel rest
    | none => behind

def isWordChar (c : Char) : Bool :=
  !(isBlank c || c = '\n' || c = '\r' || c = ',' || c = ']' || c = '}' || c = '#')

/-- A value of one word, or a date and a time with a space between. -/
def word? (input : List Char) : Option (Value × List Char) :=
  let word := input.takeWhile isWordChar
  let rest := input.dropWhile isWordChar
  match rest with
  | ' ' :: more =>
    let time := more.takeWhile isWordChar
    if afterDate? word = some [] && isTimeWithOffset time then
      some (.moment (String.ofList (word ++ ' ' :: time)), more.dropWhile isWordChar)
    else (scalar? word).map (·, rest)
  | _ => (scalar? word).map (·, rest)

mutual

/-- A value. `depth` is how many levels may be nested in it; `fuel` is more than the length of what
is read. -/
def value? (fuel depth : Nat) (input : List Char) : Option (Value × List Char) :=
  match fuel with
  | 0 => none
  | fuel + 1 =>
    match input with
    | '"' :: _ | '\'' :: _ =>
      (text? fuel input).map fun (text, rest) => (.string (.ofList text), rest)
    | '[' :: rest =>
      match depth with
      | 0 => none
      | depth + 1 => (items? fuel depth rest).map fun (items, rest) => (.array items, rest)
    | '{' :: rest =>
      match depth with
      | 0 => none
      | depth + 1 =>
        match skipBlanks rest with
        | '}' :: rest => some (.table .inline [], rest)
        | rest =>
          (fields? fuel depth [] rest).map fun (entries, rest) => (.table .inline entries, rest)
    | _ => word? input

def items? (fuel depth : Nat) (input : List Char) : Option (List Value × List Char) :=
  match fuel with
  | 0 => none
  | fuel + 1 =>
    match skipLines fuel input with
    | ']' :: rest => some ([], rest)
    | input =>
      match value? fuel depth input with
      | none => none
      | some (value, rest) =>
        match skipLines fuel rest with
        | ',' :: rest => (items? fuel depth rest).map fun (items, rest) => (value :: items, rest)
        | ']' :: rest => some ([value], rest)
        | _ => none

def fields? (fuel depth : Nat) (entries : Entries) (input : List Char) :
    Option (Entries × List Char) :=
  match fuel with
  | 0 => none
  | fuel + 1 =>
    match key? fuel input with
    | some (path, key, '=' :: rest) =>
      match value? fuel depth (skipBlanks rest) with
      | none => none
      | some (value, rest) =>
        match entries.insert .inline path key value with
        | none => none
        | some entries =>
          match skipBlanks rest with
          | ',' :: rest => fields? fuel depth entries rest
          | '}' :: rest => some (entries, rest)
          | _ => none
    | _ => none

end

/-- The document so far: everything set, and the path of the table that was opened last. -/
structure Draft where
  root : Entries := []
  opened : List String := []

def line? (fuel : Nat) (draft : Draft) (input : List Char) : Option (Draft × List Char) :=
  match input with
  | '[' :: '[' :: rest =>
    match key? fuel rest with
    | some (path, key, ']' :: ']' :: rest) =>
      (draft.root.openNext path key).map fun root => (⟨root, path ++ [key]⟩, rest)
    | _ => none
  | '[' :: rest =>
    match key? fuel rest with
    | some (path, key, ']' :: rest) =>
      (draft.root.openTable path key).map fun root => (⟨root, path ++ [key]⟩, rest)
    | _ => none
  | _ =>
    match key? fuel input with
    | some (path, key, '=' :: rest) =>
      match value? fuel (depthLimit - 1) (skipBlanks rest) with
      | none => none
      | some (value, rest) =>
        (draft.root.insertIn draft.opened path key value).map fun root =>
          ({ draft with root }, rest)
    | _ => none

/-- The lines of a document; `fuel` is more than twice its length, since a level that a value is
nested in uses two of it. -/
def lines? : Nat → Draft → List Char → Option Entries
  | 0, _, _ => none
  | fuel + 1, draft, input =>
    match skipLines fuel input with
    | [] => some draft.root
    | input =>
      match line? fuel draft input with
      | none => none
      | some (draft, rest) =>
        match lineEnd? rest with
        | none => none
        | some rest => lines? fuel draft rest

def parse? (input : List Char) : Option Entries :=
  let input := if input.head? = some '\ufeff' then input.drop 1 else input
  lines? (2 * input.length + 2) {} input

end ArenaMemory.Toml
