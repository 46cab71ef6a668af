import ArenaMemory.Layout
import ArenaMemory.Machine

namespace ArenaMemory

variable {σ τ : Type}

structure Allocator (σ : Type) where
  /-- Nothing in the store belongs to the allocator. -/
  stateless : Bool
  alloc : Layout → Machine σ → Option Word × Machine σ
  release : Word → Layout → Machine σ → Machine σ
  /-- Moves a block from its layout to another; the block stays when there is no memory. -/
  nativeRealloc : Option (Word → Layout → Layout → Machine σ → Option Word × Machine σ)
  nativeZalloc : Option (Layout → Machine σ → Option Word × Machine σ)

namespace Allocator

def zalloc (allocator : Allocator σ) (layout : Layout) (machine : Machine σ) :
    Option Word × Machine σ :=
  match allocator.nativeZalloc with
  | some zalloc => zalloc layout machine
  | none =>
    match allocator.alloc layout machine with
    | (none, machine) => (none, machine)
    | (some addr, machine) => (some addr, machine.mapMemory (·.clear addr layout.size))

def free (allocator : Allocator σ) (block : Option Word) (layout : Layout) (machine : Machine σ) :
    Machine σ :=
  match block with
  | none => machine
  | some addr => allocator.release addr layout machine

/-- Moves a block to a new layout. Without a native operation the handle composes the move of a
request, a copy of the bytes that both layouts have room for, and a release. -/
def realloc (allocator : Allocator σ) (block : Option Word) (old new : Layout)
    (machine : Machine σ) : Option Word × Machine σ :=
  match block with
  | none => allocator.alloc new machine
  | some addr =>
    match allocator.nativeRealloc with
    | some realloc => realloc addr old new machine
    | none =>
      if new.size = 0 then (none, allocator.release addr old machine)
      else
        match allocator.alloc new machine with
        | (none, machine) => (none, machine)
        | (some fresh, machine) =>
          let machine := machine.mapMemory (·.copy addr fresh (min old.size new.size).toNat)
          (some fresh, allocator.release addr old machine)

def allocArray (allocator : Allocator σ) (element : Layout) (count : Nat) (machine : Machine σ) :
    Option Word × Machine σ :=
  match element.array count with
  | none => (none, machine)
  | some layout => allocator.alloc layout machine

def zallocArray (allocator : Allocator σ) (element : Layout) (count : Nat) (machine : Machine σ) :
    Option Word × Machine σ :=
  match element.array count with
  | none => (none, machine)
  | some layout => allocator.zalloc layout machine

def box (allocator : Allocator σ) (layout : Layout) (init : Word → Memory → Memory)
    (machine : Machine σ) : Option Word × Machine σ :=
  match allocator.alloc layout machine with
  | (none, machine) => (none, machine)
  | (some addr, machine) => (some addr, machine.mapMemory (init addr))

def unbox (allocator : Allocator σ) (layout : Layout) (addr : Word)
    (finalize : Machine σ → Machine σ) (machine : Machine σ) : Machine σ :=
  allocator.release addr layout (finalize machine)

def within (allocator : Allocator τ) (part : σ → τ) (put : τ → σ → σ) : Allocator σ where
  stateless := allocator.stateless
  alloc layout machine := machine.zoom part put (allocator.alloc layout)
  release addr layout machine :=
    (machine.zoom part put fun inner => ((), allocator.release addr layout inner)).2
  nativeRealloc := allocator.nativeRealloc.map fun realloc addr old new machine =>
    machine.zoom part put (realloc addr old new)
  nativeZalloc := allocator.nativeZalloc.map fun zalloc layout machine =>
    machine.zoom part put (zalloc layout)

end Allocator

end ArenaMemory
