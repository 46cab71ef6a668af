import ArenaMemory.Interner.Buffer
import ArenaMemory.Interner.LoadFactor

namespace ArenaMemory

variable {σ : Type}

/-- A slot. Its tag is one more than a symbol's number, so that zeroed storage holds free slots. -/
structure Slot where
  hash : UInt64 := 0
  tag : UInt32 := 0
deriving DecidableEq

namespace Slot

def layout : Layout := ⟨16, .eight⟩

def isFree (slot : Slot) : Bool := slot.tag = 0

def id (slot : Slot) : UInt32 := slot.tag - 1

def ofId (hash : UInt64) (id : UInt32) : Slot := ⟨hash, id + 1⟩

end Slot

structure SymbolMap where
  loadFactor : LoadFactor
  buffer : Buffer := .empty
  slots : Array Slot := #[]
  count : Nat := 0

namespace SymbolMap

def leastCapacity : Nat := 16

def capacity (map : SymbolMap) : Nat := map.buffer.capacity

def home (hash : UInt64) (slots : Nat) : Nat := hash.toNat % slots

/-- Searches at most `steps` slots from `index` on for a symbol with the hash that `holds`. -/
def search (slots : Array Slot) (hash : UInt64) (holds : UInt32 → Bool) (index : Nat) :
    Nat → Option UInt32
  | 0 => none
  | steps + 1 =>
    match slots[index]? with
    | none => none
    | some slot =>
      if slot.isFree then none
      else if slot.hash = hash && holds slot.id then some slot.id
      else search slots hash holds ((index + 1) % slots.size) steps

def find (map : SymbolMap) (hash : UInt64) (holds : UInt32 → Bool) : Option UInt32 :=
  search map.slots hash holds (home hash map.slots.size) map.slots.size

def firstFree (slots : Array Slot) (index : Nat) : Nat → Option Nat
  | 0 => none
  | steps + 1 =>
    match slots[index]? with
    | none => none
    | some slot =>
      if slot.isFree then some index else firstFree slots ((index + 1) % slots.size) steps

def place (slots : Array Slot) (slot : Slot) : Array Slot :=
  match firstFree slots (home slot.hash slots.size) slots.size with
  | none => slots
  | some index => slots.setIfInBounds index slot

/-- The least number of slots, a power of two, that is no less than `capacity` and may hold
`needed` symbols. -/
def capacityFor? (factor : LoadFactor) (capacity needed : Nat) : Option Nat :=
  ((List.range 64).map (Nat.pow 2)).find? fun slots =>
    max capacity leastCapacity ≤ slots && needed ≤ factor.threshold slots

def rehash (allocator : Allocator σ) (map : SymbolMap) (capacity : Nat) (machine : Machine σ) :
    Except InternFailure Unit × SymbolMap × Machine σ :=
  match allocator.zallocArray Slot.layout capacity machine with
  | (none, machine) => (.error (.mapExhausted map.capacity), map, machine)
  | (some addr, machine) =>
    let slots := map.slots.foldl
      (fun slots slot => if slot.isFree then slots else place slots slot)
      (Array.replicate capacity {})
    let machine := machine.emit (.bufferGrew .map map.capacity capacity)
    let machine := map.buffer.release allocator Slot.layout machine
    (.ok (), { map with buffer := ⟨addr, capacity⟩, slots }, machine)

def reserve (allocator : Allocator σ) (map : SymbolMap) (additional : Nat) (machine : Machine σ) :
    Except InternFailure Unit × SymbolMap × Machine σ :=
  let needed := map.count + additional
  if needed ≤ map.loadFactor.threshold map.capacity then (.ok (), map, machine)
  else
    match capacityFor? map.loadFactor map.capacity needed with
    | none => (.error (.mapExhausted map.capacity), map, machine)
    | some capacity => map.rehash allocator capacity machine

def insertUnique (map : SymbolMap) (hash : UInt64) (id : UInt32) : SymbolMap :=
  { map with slots := place map.slots (.ofId hash id), count := map.count + 1 }

def clear (map : SymbolMap) : SymbolMap :=
  { map with slots := Array.replicate map.capacity {}, count := 0 }

def release (allocator : Allocator σ) (map : SymbolMap) (machine : Machine σ) :
    SymbolMap × Machine σ :=
  ({ map with buffer := .empty, slots := #[], count := 0 },
    map.buffer.release allocator Slot.layout machine)

end SymbolMap

end ArenaMemory
