namespace ArenaMemory

abbrev Word := UInt64

namespace Word

def maxValue : Word := 0xFFFFFFFFFFFFFFFF

/-- The sum, unless it leaves the range: a wrapped sum is below either summand. -/
def checkedAdd (a b : Word) : Option Word :=
  if a + b < a then none else some (a + b)

def checkedMul (a b : Word) : Option Word :=
  if a.toNat * b.toNat < UInt64.size then some (a * b) else none

def saturatingAdd (a b : Word) : Word :=
  (checkedAdd a b).getD maxValue

def saturatingSub (a b : Word) : Word :=
  if b ≤ a then a - b else 0

def ofNat? (n : Nat) : Option Word :=
  if n < UInt64.size then some (UInt64.ofNat n) else none

def alignDown (value align : Word) : Word :=
  value &&& ~~~(align - 1)

/-- Rounds `value` up to a multiple of a power of two, wrapping past the largest word. -/
def alignUp (value align : Word) : Word :=
  (value + align - 1) &&& ~~~(align - 1)

def checkedAlignUp (value align : Word) : Option Word :=
  (checkedAdd value (align - 1)).map (· &&& ~~~(align - 1))

end Word

end ArenaMemory
