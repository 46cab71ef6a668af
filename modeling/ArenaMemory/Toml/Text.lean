import ArenaMemory.Text.Character

namespace ArenaMemory.Toml

def isBlank (c : Char) : Bool := c = ' ' || c = '\t'

def isPrintable (c : Char) : Bool := c = '\t' || (0x20 ≤ c.toNat && c.toNat ≠ 0x7F)

def afterNewline? : List Char → Option (List Char)
  | '\n' :: rest => some rest
  | '\r' :: '\n' :: rest => some rest
  | _ => none

def codePoint? (count : Nat) (input : List Char) : Option (Char × List Char) :=
  let digits := input.take count
  if digits.length = count && digits.all isHexDigit then
    (charOfHex? digits).map fun c => (c, input.drop count)
  else none

def escape? : List Char → Option (Char × List Char)
  | 'b' :: rest => some ('\x08', rest)
  | 't' :: rest => some ('\t', rest)
  | 'n' :: rest => some ('\n', rest)
  | 'f' :: rest => some ('\x0c', rest)
  | 'r' :: rest => some ('\r', rest)
  | '"' :: rest => some ('"', rest)
  | '\\' :: rest => some ('\\', rest)
  | 'u' :: rest => codePoint? 4 rest
  | 'U' :: rest => codePoint? 8 rest
  | _ => none

def basicText? : Nat → List Char → Option (List Char × List Char)
  | 0, _ => none
  | _ + 1, [] => none
  | fuel + 1, c :: rest =>
    if c = '"' then some ([], rest)
    else if c = '\\' then
      match escape? rest with
      | none => none
      | some (c, rest) => (basicText? fuel rest).map fun (text, rest) => (c :: text, rest)
    else if isPrintable c then
      (basicText? fuel rest).map fun (text, rest) => (c :: text, rest)
    else none

def literalText? (input : List Char) : Option (List Char × List Char) :=
  let inside (c : Char) : Bool := isPrintable c && c ≠ '\''
  match input.dropWhile inside with
  | '\'' :: rest => some (input.takeWhile inside, rest)
  | _ => none

def skipSpace : Nat → List Char → List Char
  | 0, input => input
  | fuel + 1, input =>
    let input := input.dropWhile isBlank
    match afterNewline? input with
    | some rest => skipSpace fuel rest
    | none => input

/-- A text over several lines; `fuel` is more than its length. The last three of up to five quotes
in a row close it. -/
def longText? (quote : Char) : Nat → List Char → Option (List Char × List Char)
  | 0, _ => none
  | _ + 1, [] => none
  | fuel + 1, c :: rest =>
    if c = quote then
      let run := ((c :: rest).takeWhile (· = quote)).length
      if run < 3 then (longText? quote fuel rest).map fun (text, rest) => (c :: text, rest)
      else
        let kept := min run 5 - 3
        some (List.replicate kept quote, (c :: rest).drop (kept + 3))
    else if c = '\\' && quote = '"' then
      match afterNewline? (rest.dropWhile isBlank) with
      | some rest => longText? quote fuel (skipSpace fuel rest)
      | none =>
        match escape? rest with
        | none => none
        | some (c, rest) => (longText? quote fuel rest).map fun (text, rest) => (c :: text, rest)
    else
      match afterNewline? (c :: rest) with
      | some rest => (longText? quote fuel rest).map fun (text, rest) => ('\n' :: text, rest)
      | none =>
        if isPrintable c then (longText? quote fuel rest).map fun (text, rest) => (c :: text, rest)
        else none

def longTextBehind? (quote : Char) (fuel : Nat) (input : List Char) :
    Option (List Char × List Char) :=
  longText? quote fuel ((afterNewline? input).getD input)

def text? (fuel : Nat) : List Char → Option (List Char × List Char)
  | '"' :: '"' :: '"' :: rest => longTextBehind? '"' fuel rest
  | '"' :: rest => basicText? fuel rest
  | '\'' :: '\'' :: '\'' :: rest => longTextBehind? '\'' fuel rest
  | '\'' :: rest => literalText? rest
  | _ => none

end ArenaMemory.Toml
