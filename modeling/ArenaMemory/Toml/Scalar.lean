import ArenaMemory.Toml.Value

namespace ArenaMemory.Toml

def isDecimalDigit (c : Char) : Bool := '0' ≤ c && c ≤ '9'

def isHexDigit (c : Char) : Bool :=
  isDecimalDigit c || ('a' ≤ c && c ≤ 'f') || ('A' ≤ c && c ≤ 'F')

def isOctalDigit (c : Char) : Bool := '0' ≤ c && c ≤ '7'

def isBinaryDigit (c : Char) : Bool := c = '0' || c = '1'

def digitRun? (isDigit : Char → Bool) : List Char → Option (List Char)
  | [] => none
  | [c] => if isDigit c then some [c] else none
  | c :: '_' :: rest => if isDigit c then (digitRun? isDigit rest).map (c :: ·) else none
  | c :: rest => if isDigit c then (digitRun? isDigit rest).map (c :: ·) else none

def wholeRun? (word : List Char) : Option (List Char) :=
  match digitRun? isDecimalDigit word with
  | some ('0' :: _ :: _) => none
  | digits => digits

def splitSign : List Char → Bool × List Char
  | '-' :: rest => (true, rest)
  | '+' :: rest => (false, rest)
  | rest => (false, rest)

def fits? (n : Int) : Option Int :=
  if -0x8000000000000000 ≤ n ∧ n < 0x8000000000000000 then some n else none

/-- Integers are decimal, or have a base marked in front and no sign. -/
def integer? (word : List Char) : Option Int :=
  match word with
  | '0' :: 'x' :: digits => based 16 isHexDigit digits
  | '0' :: 'o' :: digits => based 8 isOctalDigit digits
  | '0' :: 'b' :: digits => based 2 isBinaryDigit digits
  | _ =>
    let (negative, rest) := splitSign word
    (wholeRun? rest).bind fun digits =>
      let n : Int := ofDigits 10 digits digitValue
      fits? (if negative then -n else n)
where
  based (base : Nat) (isDigit : Char → Bool) (digits : List Char) : Option Int :=
    (digitRun? isDigit digits).bind fun digits => fits? (ofDigits base digits digitValue)

def power? (word : List Char) : Option Int :=
  let (negative, rest) := splitSign word
  (digitRun? isDecimalDigit rest).map fun digits =>
    let n : Int := ofDigits 10 digits digitValue
    if negative then -n else n

def mantissa? (word : List Char) : Option (List Char × List Char) :=
  match word.dropWhile (· ≠ '.') with
  | [] => (wholeRun? word).map (·, [])
  | _ :: places =>
    match wholeRun? (word.takeWhile (· ≠ '.')), digitRun? isDecimalDigit places with
    | some whole, some places => some (whole, places)
    | _, _ => none

def isExponentMark (c : Char) : Bool := c = 'e' || c = 'E'

/-- A number with a point or an exponent, or one of the two that have no digits. Digits that name a
number too large are refused; below the range they stand for negative infinity. -/
def float? (word : List Char) : Option Binary64 :=
  let (negative, rest) := splitSign word
  if rest = ['i', 'n', 'f'] then some (.ofMagnitude negative Binary64.infinityBits)
  else if rest = ['n', 'a', 'n'] then some .nan
  else
    let mantissa := rest.takeWhile (!isExponentMark ·)
    let marked := rest.dropWhile (!isExponentMark ·)
    let power := if marked.isEmpty then some 0 else power? (marked.drop 1)
    if marked.isEmpty && !mantissa.contains '.' then none
    else
      match mantissa? mantissa, power with
      | some (whole, places), some power =>
        let decimal : Decimal :=
          ⟨ofDigits 10 (whole ++ places) digitValue, power - places.length⟩
        let x := Binary64.ofDecimal negative decimal
        if x = .infinity then none else some x
      | _, _ => none

def field? (count : Nat) (word : List Char) : Option (Nat × List Char) :=
  let digits := word.take count
  if digits.length = count && digits.all isDecimalDigit then
    some (ofDigits 10 digits digitValue, word.drop count)
  else none

def daysIn (year month : Nat) : Nat :=
  if month = 2 then
    if year % 4 = 0 && (year % 100 ≠ 0 || year % 400 = 0) then 29 else 28
  else if month = 4 || month = 6 || month = 9 || month = 11 then 30
  else 31

def afterDate? (word : List Char) : Option (List Char) :=
  match field? 4 word with
  | some (year, '-' :: rest) =>
    match field? 2 rest with
    | some (month, '-' :: rest) =>
      match field? 2 rest with
      | some (day, rest) =>
        if 1 ≤ month && month ≤ 12 && 1 ≤ day && day ≤ daysIn year month then some rest else none
      | none => none
    | _ => none
  | _ => none

/-- The rest after a time of day. A minute may have a leap second, and a second any fraction. -/
def afterTime? (word : List Char) : Option (List Char) :=
  match field? 2 word with
  | some (hour, ':' :: rest) =>
    match field? 2 rest with
    | some (minute, ':' :: rest) =>
      match field? 2 rest with
      | some (second, rest) =>
        if hour ≤ 23 && minute ≤ 59 && second ≤ 60 then
          match rest with
          | '.' :: c :: rest => if isDecimalDigit c then some (rest.dropWhile isDecimalDigit) else none
          | rest => some rest
        else none
      | none => none
    | _ => none
  | _ => none

def isOffset (word : List Char) : Bool :=
  match word with
  | [] | ['Z'] | ['z'] => true
  | c :: rest =>
    (c = '+' || c = '-') &&
      match field? 2 rest with
      | some (hour, ':' :: rest) =>
        match field? 2 rest with
        | some (minute, []) => hour ≤ 23 && minute ≤ 59
        | _ => false
      | _ => false

def isTimeWithOffset (word : List Char) : Bool :=
  match afterTime? word with
  | none => false
  | some rest => isOffset rest

def isMoment (word : List Char) : Bool :=
  match afterDate? word with
  | some [] => true
  | some (mark :: rest) => (mark = 'T' || mark = 't' || mark = ' ') && isTimeWithOffset rest
  | none => afterTime? word = some []

def scalar? (word : List Char) : Option Value :=
  if word = ['t', 'r', 'u', 'e'] then some (.boolean true)
  else if word = ['f', 'a', 'l', 's', 'e'] then some (.boolean false)
  else
    match integer? word with
    | some n => some (.integer n)
    | none =>
      match float? word with
      | some x => some (.float x)
      | none => if isMoment word then some (.moment (String.ofList word)) else none

end ArenaMemory.Toml
