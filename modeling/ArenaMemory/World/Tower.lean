import ArenaMemory.Allocator.Tracker
import ArenaMemory.Interner.Basic

namespace ArenaMemory

variable {ι β : Type}

/-- An allocator of a world, with everything beneath it. -/
inductive Origin (ι : Type) where
  | base (which : ι)
  | tracker (name : String) (inner : Origin ι)
  | region (name : String) (inner : Origin ι)
deriving DecidableEq

inductive BoxKind where
  | word
  | triple
  /-- A word that is counted when it is dropped. -/
  | flag
deriving DecidableEq

namespace BoxKind

def layout : BoxKind → Layout
  | .word => ⟨8, .eight⟩
  | .triple => ⟨24, .eight⟩
  | .flag => ⟨16, .eight⟩

def words (kind : BoxKind) (value : Word) : List Word :=
  match kind with
  | .word => [value]
  | .triple => [value, value, value]
  | .flag => [value]

end BoxKind

def Memory.writeWords (memory : Memory) (addr : Word) (words : List Word) : Memory :=
  memory.write addr (words.flatMap fun word => littleEndian 8 word.toNat)

def Memory.readWords (memory : Memory) (addr : Word) (count : Nat) : List Word :=
  (List.range count).map fun i =>
    UInt64.ofNat (ofLittleEndian (memory.read (addr + UInt64.ofNat (8 * i)) 8))

inductive Object where
  | tracker (tracker : Tracker)
  /-- A region, and its own storage if that came from its backing allocator. -/
  | region (region : Region) (home : Option Word)
  | interner (interner : Interner) (home : Option Word)
  | box (kind : BoxKind) (addr : Word)

namespace Object

def regionLayout : Layout := ⟨48, .eight⟩

def internerLayout : Layout := ⟨160, .eight⟩

end Object

structure Item (ι : Type) where
  name : String
  origin : Origin ι
  object : Object

structure Store (ι β : Type) where
  items : List (Item ι) := []
  dropped : Nat := 0
  base : β

namespace Store

def find? (store : Store ι β) (name : String) : Option (Item ι) :=
  store.items.find? (·.name = name)

def tracker? (store : Store ι β) (name : String) : Option Tracker :=
  match store.find? name with
  | some { object := .tracker tracker, .. } => some tracker
  | _ => none

def region? (store : Store ι β) (name : String) : Option Region :=
  match store.find? name with
  | some { object := .region region _, .. } => some region
  | _ => none

def put (store : Store ι β) (name : String) (object : Object) : Store ι β :=
  { store with
    items := store.items.map fun item => if item.name = name then { item with object } else item }

def putRegion (store : Store ι β) (name : String) (region : Region) : Store ι β :=
  { store with
    items := store.items.map fun item =>
      if item.name = name then
        match item.object with
        | .region _ home => { item with object := .region region home }
        | _ => item
      else item }

def add (store : Store ι β) (item : Item ι) : Store ι β :=
  { store with items := item :: store.items }

def remove (store : Store ι β) (name : String) : Store ι β :=
  { store with items := store.items.filter (·.name ≠ name) }

def isUsed (store : Store ι β) (name : String) : Bool :=
  store.items.any fun item =>
    match item.origin with
    | .base _ => false
    | .tracker on _ => on = name
    | .region on _ => on = name

end Store

namespace Origin

def allocator (bases : ι → Allocator β) : Origin ι → Allocator (Store ι β)
  | .base which => (bases which).within (·.base) fun base store => { store with base }
  | .tracker name inner =>
    (inner.allocator bases).tracked (·.tracker? name) fun tracker store =>
      store.put name (.tracker tracker)
  | .region name inner =>
    .ofRegion (inner.allocator bases) (·.region? name) fun region store =>
      store.putRegion name region

/-- Every region on the way down has a chunk, so that addresses come from the base allocator;
`isFixed` tells whether that one always answers the same addresses. -/
def isAnchored (store : Store ι β) (isFixed : ι → Bool) : Origin ι → Bool
  | .base which => isFixed which
  | .tracker _ inner => inner.isAnchored store isFixed
  | .region name inner =>
    match store.region? name with
    | none => false
    | some beneath => !beneath.chunks.isEmpty && inner.isAnchored store isFixed

end Origin

end ArenaMemory
