namespace ArenaMemory

/-- The number `digits * 10 ^ exponent`. -/
structure Decimal where
  digits : Nat
  exponent : Int
deriving DecidableEq

def scaleRatio (base : Nat) (power : Int) (num den : Nat) : Nat × Nat :=
  match power with
  | .ofNat n => (num * Nat.pow base n, den)
  | .negSucc n => (num, den * Nat.pow base (n + 1))

def digitCount (base n : Nat) : Nat :=
  (Nat.toDigits base n).length

/-- The exponent of the largest power of the base that is no more than a positive quotient. The
digit counts leave two candidates. -/
def floorLog (base num den : Nat) : Int :=
  let high : Int := digitCount base num - digitCount base den
  let (n, d) := scaleRatio base (-high) num den
  if d ≤ n then high else high - 1

def roundHalfEven (num den : Nat) : Nat :=
  let low := num / den
  let rest := num % den
  if den < 2 * rest || (den = 2 * rest && low % 2 = 1) then low + 1 else low

def ofDigits (base : Nat) (digits : List Char) (value : Char → Nat) : Nat :=
  digits.foldl (fun n c => base * n + value c) 0

def digitValue (c : Char) : Nat :=
  if '0' ≤ c ∧ c ≤ '9' then c.toNat - '0'.toNat
  else if 'a' ≤ c ∧ c ≤ 'f' then c.toNat - 'a'.toNat + 10
  else c.toNat - 'A'.toNat + 10

namespace Decimal

def strip (decimal : Decimal) : Nat → Decimal
  | 0 => decimal
  | count + 1 =>
    if decimal.digits % 10 = 0 then strip ⟨decimal.digits / 10, decimal.exponent + 1⟩ count
    else decimal

def positional (decimal : Decimal) : List Char :=
  let digits := Nat.toDigits 10 decimal.digits
  match decimal.exponent with
  | .ofNat n => digits ++ List.replicate n '0'
  | .negSucc n =>
    let places := n + 1
    if places < digits.length then
      digits.take (digits.length - places) ++ '.' :: digits.drop (digits.length - places)
    else '0' :: '.' :: List.replicate (places - digits.length) '0' ++ digits

end Decimal

end ArenaMemory
