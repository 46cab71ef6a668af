namespace ArenaMemory

inductive InternFailure where
  /-- The arena had no room for a copy of that many bytes. -/
  | arenaExhausted (length : Nat)
  /-- The table of entries could not grow beyond its capacity. -/
  | tableExhausted (capacity : Nat)
  | mapExhausted (capacity : Nat)
  | symbolsExhausted
deriving DecidableEq

def InternFailure.message : InternFailure → String
  | .arenaExhausted length => s!"interner arena exhausted while copying {length} bytes"
  | .tableExhausted capacity => s!"symbol table could not grow beyond {capacity} entries"
  | .mapExhausted capacity => s!"symbol map could not grow beyond {capacity} slots"
  | .symbolsExhausted => "symbol space exhausted"

end ArenaMemory
