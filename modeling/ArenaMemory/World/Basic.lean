import ArenaMemory.Allocator.Platform
import ArenaMemory.World.Tower

namespace ArenaMemory

inductive BaseName where
  | window
  | fullWindow
  | system
deriving DecidableEq

namespace BaseName

def allocator : BaseName → Allocator Platform
  | .window => Platform.plainWindow
  | .fullWindow => Platform.fullWindow
  | .system => Platform.systemHeap

/-- Addresses in the window are the same in every run; those of the heap are not. -/
def isFixed : BaseName → Bool
  | .window | .fullWindow => true
  | .system => false

end BaseName

inductive Handle where
  | base (which : BaseName)
  | object (name : String)
deriving DecidableEq

abbrev Objects := Store BaseName Platform

structure Block where
  owner : Handle
  addr : Word
  layout : Layout
  /-- How many bytes from the start were written. -/
  known : Nat

inductive Place where
  | offset (offset : Word)
  | absolute (addr : Word)
  /-- Anywhere; all that can be told is whether the address has its alignment. -/
  | unfixed (aligned : Bool)
deriving DecidableEq

structure World where
  machine : Machine Objects
  blocks : List (String × Block) := []

namespace World

def ofCap (cap : Word) : World where
  machine := { store := { base := { window := .ofCap cap } } }

def anchor : Word := 0x10000

def contentHash : ContentHash := fun bytes =>
  bytes.foldl (fun hash byte => (hash ^^^ byte.toUInt64) * 0x100000001B3) 0xCBF29CE484222325

def find? (world : World) (name : String) : Option (Item BaseName) :=
  world.machine.store.find? name

def origin? (world : World) (handle : Handle) : Option (Origin BaseName) :=
  match handle with
  | .base which => some (.base which)
  | .object name =>
    match world.find? name with
    | some { origin, object := .tracker _, .. } => some (.tracker name origin)
    | some { origin, object := .region _ _, .. } => some (.region name origin)
    | _ => none

def allocator (origin : Origin BaseName) : Allocator Objects :=
  origin.allocator BaseName.allocator

def place (world : World) (origin : Origin BaseName) (addr : Word) (align : Alignment) : Place :=
  if origin.isAnchored world.machine.store BaseName.isFixed then
    if Window.base ≤ addr && addr - Window.base ≤ Window.maxCap then .offset (addr - Window.base)
    else .absolute addr
  else .unfixed (addr % align.bytes = 0)

def block? (world : World) (label : String) : Option Block :=
  world.blocks.lookup label

def forget (world : World) (label : String) : World :=
  { world with blocks := world.blocks.filter (·.1 ≠ label) }

def keep (world : World) (label : Option String) (block : Block) : World :=
  match label with
  | none => world
  | some label => { world with blocks := (label, block) :: (world.forget label).blocks }

def forgetOwned (world : World) (owner : Handle) : World :=
  { world with blocks := world.blocks.filter (·.2.owner ≠ owner) }

def mapStore (world : World) (f : Objects → Objects) : World :=
  { world with machine := { world.machine with store := f world.machine.store } }

def request (world : World)
    (action : Machine Objects → Option Word × Machine Objects) : Option Word × World :=
  let (result, machine) := action world.machine
  (result, { world with machine })

/-- Drops an object: what it obtained goes back first, then its own storage. -/
def release (item : Item BaseName) (machine : Machine Objects) : Machine Objects :=
  let allocator := allocator item.origin
  match item.object with
  | .tracker _ => machine
  | .region region none => (region.deinit allocator machine).2
  | .region region (some home) =>
    allocator.unbox Object.regionLayout home (fun machine => (region.deinit allocator machine).2)
      machine
  | .interner interner none => (interner.deinit allocator machine).2
  | .interner interner (some home) =>
    allocator.unbox Object.internerLayout home
      (fun machine => (interner.deinit allocator machine).2) machine
  | .box kind addr => allocator.unbox kind.layout addr (dropValue kind) machine
where
  dropValue (kind : BoxKind) (machine : Machine Objects) : Machine Objects :=
    if kind = .flag then
      { machine with store := { machine.store with dropped := machine.store.dropped + 1 } }
    else machine

def dropItem (world : World) (item : Item BaseName) : World :=
  let world := { world with machine := release item world.machine }
  let world := world.mapStore (·.remove item.name)
  match item.object with
  | .region .. => world.forgetOwned (.object item.name)
  | _ => world

def dropAll (world : World) : World :=
  world.machine.store.items.foldl dropItem world

end World

end ArenaMemory
