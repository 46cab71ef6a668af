import ArenaMemory.Word

namespace ArenaMemory

/-- A power of two that addresses are multiples of. -/
structure Alignment where
  bytes : Word
  isPowerOfTwo : bytes.toNat.isPowerOfTwo
deriving DecidableEq

namespace Alignment

def ofWord? (bytes : Word) : Option Alignment :=
  if h : bytes.toNat.isPowerOfTwo then some ⟨bytes, h⟩ else none

def one : Alignment := ⟨1, 0, rfl⟩

def two : Alignment := ⟨2, 1, rfl⟩

def four : Alignment := ⟨4, 2, rfl⟩

def eight : Alignment := ⟨8, 3, rfl⟩

def sixteen : Alignment := ⟨16, 4, rfl⟩

def sixtyFour : Alignment := ⟨64, 6, rfl⟩

def strictest (a b : Alignment) : Alignment :=
  if a.bytes ≤ b.bytes then b else a

end Alignment

structure Layout where
  size : Word
  align : Alignment
deriving DecidableEq

namespace Layout

def ofWords? (size align : Word) : Option Layout :=
  (Alignment.ofWord? align).map (⟨size, ·⟩)

def ofCount? (count : Nat) (align : Alignment) : Option Layout :=
  (Word.ofNat? count).map (⟨·, align⟩)

def array (element : Layout) (count : Nat) : Option Layout :=
  ofCount? (element.size.toNat * count) element.align

/-- The same size, aligned to at least `align`. An alignment that raises nothing is not looked at
further; one that does has to be a power of two. -/
def alignTo? (layout : Layout) (align : Word) : Option Layout :=
  if layout.align.bytes < align then ofWords? layout.size align else some layout

def describe (layout : Layout) : String :=
  s!"Layout \x7b size: {layout.size}, align: {layout.align.bytes} \x7d"

end Layout

end ArenaMemory
