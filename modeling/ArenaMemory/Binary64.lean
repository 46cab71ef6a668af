import ArenaMemory.Decimal

namespace ArenaMemory

structure Binary64 where
  bits : UInt64
deriving DecidableEq

namespace Binary64

def infinityBits : Nat := 0x7FF0000000000000

def infinity : Binary64 := ⟨0x7FF0000000000000⟩

def nan : Binary64 := ⟨0x7FF8000000000000⟩

def one : Binary64 := ⟨0x3FF0000000000000⟩

def isNegative (x : Binary64) : Bool :=
  0x8000000000000000 ≤ x.bits

def magnitude (x : Binary64) : UInt64 :=
  x.bits &&& 0x7FFFFFFFFFFFFFFF

def isNaN (x : Binary64) : Bool :=
  infinity.bits < x.magnitude

def isInfinite (x : Binary64) : Bool :=
  x.magnitude = infinity.bits

/-- Numerical equality: no NaN equals anything, and both zeros are equal. -/
def same (x y : Binary64) : Bool :=
  !x.isNaN && !y.isNaN && (x.bits = y.bits || (x.magnitude = 0 && y.magnitude = 0))

/-- The number strictly between zero and one. Positive numbers are ordered like their bits. -/
def inUnitInterval (x : Binary64) : Bool :=
  0 < x.bits && x.bits < one.bits

/-- The exponent field, where the least one also stands for the numbers below it. -/
def exponentField (x : Binary64) : Nat :=
  max (x.magnitude >>> 52).toNat 1

/-- The integer that times `2 ^ exponent` gives the magnitude of a finite number. -/
def significand (x : Binary64) : Nat :=
  let fraction := (x.bits &&& 0xFFFFFFFFFFFFF).toNat
  if x.magnitude < 0x10000000000000 then fraction else fraction + 0x10000000000000

def exponent (x : Binary64) : Int :=
  (x.exponentField : Int) - 1075

def ratio (x : Binary64) : Nat × Nat :=
  scaleRatio 2 x.exponent x.significand 1

/-- The bits of the magnitude nearest to a quotient. Rounding up to the next power of two carries
into the exponent field by itself. -/
def bitsOfRatio (num den : Nat) : Nat :=
  if num = 0 then 0
  else
    let power := max (floorLog 2 num den - 52) (-1074)
    let (n, d) := scaleRatio 2 (-power) num den
    min (roundHalfEven n d + (power + 1074).toNat * 0x10000000000000) infinityBits

/-- The bits of the magnitude nearest to a decimal. Decimals far outside the range are told by the
position of their first digit. -/
def bitsOfDecimal (decimal : Decimal) : Nat :=
  let leading := decimal.exponent + digitCount 10 decimal.digits
  if decimal.digits = 0 then 0
  else if 310 < leading then infinityBits
  else if leading < -330 then 0
  else
    let (num, den) := scaleRatio 10 decimal.exponent decimal.digits 1
    bitsOfRatio num den

def ofMagnitude (negative : Bool) (bits : Nat) : Binary64 :=
  ⟨UInt64.ofNat bits ||| if negative then 0x8000000000000000 else 0⟩

def ofDecimal (negative : Bool) (decimal : Decimal) : Binary64 :=
  ofMagnitude negative (bitsOfDecimal decimal)

def ofInt (n : Int) : Binary64 :=
  ofMagnitude (n < 0) (bitsOfRatio n.natAbs 1)

def readsBack (x : Binary64) (decimal : Decimal) : Bool :=
  bitsOfDecimal decimal = x.magnitude.toNat

/-- A decimal of `count` digits that reads back, if there is one: of the two neighbours on that grid
the nearer, and the upper one when both are as near. -/
def decimalOf? (x : Binary64) (count : Nat) : Option Decimal :=
  let (num, den) := x.ratio
  let exponent := floorLog 10 num den + 1 - count
  let (n, d) := scaleRatio 10 (-exponent) num den
  let low : Decimal := ⟨n / d, exponent⟩
  let high : Decimal := ⟨n / d + 1, exponent⟩
  if x.readsBack low && (2 * (n % d) < d || !x.readsBack high) then some low
  else if x.readsBack high then some high
  else none

def exactDecimal (x : Binary64) : Decimal :=
  match x.exponent with
  | .ofNat n => ⟨x.significand * Nat.pow 2 n, 0⟩
  | .negSucc n => ⟨x.significand * Nat.pow 5 (n + 1), .negSucc n⟩

/-- The decimal with the fewest digits that has the magnitude of a finite number as its nearest. -/
def shortest (x : Binary64) : Decimal :=
  if x.magnitude = 0 then ⟨0, 0⟩
  else
    match (List.range 17).findSome? fun count => x.decimalOf? (count + 1) with
    | some decimal => decimal.strip (digitCount 10 decimal.digits)
    | none => x.exactDecimal

def signText (x : Binary64) : List Char :=
  if x.isNegative then ['-'] else []

def display (x : Binary64) : String :=
  if x.isNaN then "NaN"
  else if x.isInfinite then String.ofList (x.signText ++ ['i', 'n', 'f'])
  else String.ofList (x.signText ++ x.shortest.positional)

end Binary64

end ArenaMemory
