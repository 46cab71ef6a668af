import ArenaMemory.Allocator.Basic

namespace ArenaMemory

variable {σ : Type}

structure Buffer where
  addr : Word
  capacity : Nat
deriving DecidableEq

namespace Buffer

def empty : Buffer := ⟨0, 0⟩

def release (allocator : Allocator σ) (element : Layout) (buffer : Buffer) (machine : Machine σ) :
    Machine σ :=
  if buffer.capacity = 0 then machine
  else
    match element.array buffer.capacity with
    | none => machine
    | some layout => allocator.release buffer.addr layout machine

/-- A buffer with room for `capacity` elements that holds the old ones. Without memory the old
buffer stays. -/
def resize? (allocator : Allocator σ) (element : Layout) (buffer : Buffer) (capacity : Nat)
    (machine : Machine σ) : Option Buffer × Machine σ :=
  match element.array capacity with
  | none => (none, machine)
  | some new =>
    let (result, machine) :=
      if buffer.capacity = 0 then allocator.alloc new machine
      else
        match element.array buffer.capacity with
        | none => (none, machine)
        | some old => allocator.realloc (some buffer.addr) old new machine
    (result.map (⟨·, capacity⟩), machine)

end Buffer

end ArenaMemory
