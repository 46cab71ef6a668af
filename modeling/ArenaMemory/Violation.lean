import ArenaMemory.Word

namespace ArenaMemory

inductive Violation where
  | layoutAlignment
  | minAlign
  | minAlignTooLarge
  | loadFactor
  | arrayLayout
  | symbolOutOfRange (symbol : UInt32) (count : Nat)
deriving DecidableEq

def Violation.message : Violation → String
  | .layoutAlignment => "layout alignment must be a power of two"
  | .minAlign => "min_align must be a power of two"
  | .minAlignTooLarge => "min_align cannot exceed CHUNK_ALIGN"
  | .loadFactor => "load factor must lie in (0, 1)"
  | .arrayLayout => "array layout overflow on free"
  | .symbolOutOfRange symbol count =>
    s!"symbol {symbol} out of range for interner with {count} symbols"

end ArenaMemory
