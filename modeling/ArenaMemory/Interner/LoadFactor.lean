import ArenaMemory.Binary64

namespace ArenaMemory

structure LoadFactor where
  value : Binary64
  inUnitInterval : value.inUnitInterval = true
deriving DecidableEq

namespace LoadFactor

def ofBinary64? (value : Binary64) : Option LoadFactor :=
  if h : value.inUnitInterval = true then some ⟨value, h⟩ else none

def threeQuarters : LoadFactor := ⟨⟨0x3FE8000000000000⟩, by decide⟩

/-- How many of that many slots may be taken: the share of them rounded down, but never all, so that
a search for a free slot ends. -/
def threshold (factor : LoadFactor) (slots : Nat) : Nat :=
  if slots = 0 then 0
  else
    min ((slots * factor.value.significand) >>> (-factor.value.exponent).toNat) (slots - 1)

end LoadFactor

end ArenaMemory
