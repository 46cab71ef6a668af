import ArenaMemory.Allocator.Basic

namespace ArenaMemory

/-- A call that reached the window. Addresses are offsets from its base. -/
inductive WindowCall where
  | alloc (layout : Layout) (result : Option Word)
  | zalloc (layout : Layout) (result : Option Word)
  | free (layout : Layout) (offset : Word)
  | realloc (offset : Word) (old new : Layout) (result : Option Word)

structure Window where
  cap : Word
  /-- How many bytes were handed out or skipped. -/
  cursor : Word := 0
  calls : List WindowCall := []

namespace Window

def base : Word := 0x1000000000

def maxCap : Word := 0x4000000

def ofCap (cap : Word) : Window :=
  { cap := min cap maxCap }

/-- The offset of the next block of a layout. The base is a multiple of every alignment served, so
that offsets are rounded like addresses. -/
def place? (window : Window) (layout : Layout) : Option Word :=
  let start := Word.alignUp window.cursor layout.align.bytes
  if base < layout.align.bytes then none
  else
    match Word.checkedAdd start layout.size with
    | none => none
    | some stop => if window.cap < stop then none else some start

def serve (window : Window) (layout : Layout) (call : Option Word → WindowCall) :
    Option Word × Window :=
  match window.place? layout with
  | none => (none, { window with calls := call none :: window.calls })
  | some start =>
    (some (base + start),
      { window with cursor := start + layout.size, calls := call (some start) :: window.calls })

end Window

structure Heap where
  next : Word := 0x100000000000

namespace Heap

def limit : Word := 0x800000000000

/-- No request is served that asks for more bytes, with those that its alignment may skip. -/
def maxRequest : Word := 0x800000000

def leastAlign : Word := 8

def take? (heap : Heap) (size align : Word) : Option (Word × Heap) :=
  let start := Word.alignUp heap.next (max align leastAlign)
  if maxRequest < align || maxRequest - align < size then none
  else if start < heap.next || limit < start then none
  else if limit - start < size then none
  else some (start, ⟨start + size⟩)

end Heap

structure Platform where
  window : Window
  heap : Heap := {}

namespace Platform

def windowAlloc (call : Layout → Option Word → WindowCall) (layout : Layout)
    (machine : Machine Platform) : Option Word × Machine Platform :=
  let (result, window) := machine.store.window.serve layout (call layout)
  (result, { machine with store := { machine.store with window } })

def windowFree (addr : Word) (layout : Layout) (machine : Machine Platform) : Machine Platform :=
  let window := machine.store.window
  let call := WindowCall.free layout (addr - Window.base)
  { machine with
    store := { machine.store with window := { window with calls := call :: window.calls } } }

def windowZalloc (layout : Layout) (machine : Machine Platform) :
    Option Word × Machine Platform :=
  match windowAlloc .zalloc layout machine with
  | (none, machine) => (none, machine)
  | (some addr, machine) => (some addr, machine.mapMemory (·.clear addr layout.size))

/-- Moving a block in the window takes fresh room, also for an empty layout, and gives nothing
back. -/
def windowRealloc (addr : Word) (old new : Layout) (machine : Machine Platform) :
    Option Word × Machine Platform :=
  match windowAlloc (fun _ => .realloc (addr - Window.base) old new) new machine with
  | (none, machine) => (none, machine)
  | (some fresh, machine) =>
    (some fresh, machine.mapMemory (·.copy addr fresh (min old.size new.size).toNat))

def plainWindow : Allocator Platform where
  stateless := false
  alloc := windowAlloc .alloc
  release := windowFree
  nativeRealloc := none
  nativeZalloc := none

def fullWindow : Allocator Platform :=
  { plainWindow with
    nativeRealloc := some windowRealloc
    nativeZalloc := some windowZalloc }

/-- A request to the heap. An empty request still gets a block of its own. -/
def heapAlloc (layout : Layout) (machine : Machine Platform) : Option Word × Machine Platform :=
  let size := max layout.size 1
  match machine.store.heap.take? size layout.align.bytes with
  | none => (none, machine.emit (.heapRefused size layout.align.bytes))
  | some (addr, heap) => (some addr, { machine with store := { machine.store with heap } })

def heapZalloc (layout : Layout) (machine : Machine Platform) : Option Word × Machine Platform :=
  match heapAlloc layout machine with
  | (none, machine) => (none, machine)
  | (some addr, machine) => (some addr, machine.mapMemory (·.clear addr layout.size))

def systemHeap : Allocator Platform where
  stateless := true
  alloc := heapAlloc
  release _ _ machine := machine
  nativeRealloc := none
  nativeZalloc := some heapZalloc

end Platform

end ArenaMemory
