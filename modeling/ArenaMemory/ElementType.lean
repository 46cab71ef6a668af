import ArenaMemory.Layout

namespace ArenaMemory

inductive ElementType where
  | empty
  | bits8
  | bits16
  | bits32
  | bits64
  | bits128
  | bytes3
  | quad32
  /-- A cache line. -/
  | line64
deriving DecidableEq

namespace ElementType

def layout : ElementType → Layout
  | .empty => ⟨0, .one⟩
  | .bits8 => ⟨1, .one⟩
  | .bits16 => ⟨2, .two⟩
  | .bits32 => ⟨4, .four⟩
  | .bits64 => ⟨8, .eight⟩
  | .bits128 => ⟨16, .sixteen⟩
  | .bytes3 => ⟨3, .one⟩
  | .quad32 => ⟨16, .four⟩
  | .line64 => ⟨64, .sixtyFour⟩

def isNumber : ElementType → Bool
  | .bits8 | .bits16 | .bits32 | .bits64 | .bits128 => true
  | .empty | .bytes3 | .quad32 | .line64 => false

end ElementType

end ArenaMemory
