import ArenaMemory.Memory
import ArenaMemory.Trace.Event

namespace ArenaMemory

structure Machine (σ : Type) where
  memory : Memory := {}
  /-- The events so far, newest first. -/
  trace : List Event := []
  store : σ

namespace Machine

variable {σ τ α : Type}

def emit (machine : Machine σ) (event : Event) : Machine σ :=
  { machine with trace := event :: machine.trace }

def mapMemory (machine : Machine σ) (f : Memory → Memory) : Machine σ :=
  { machine with memory := f machine.memory }

def withStore (machine : Machine σ) (store : τ) : Machine τ :=
  ⟨machine.memory, machine.trace, store⟩

def zoom (machine : Machine σ) (part : σ → τ) (put : τ → σ → σ)
    (action : Machine τ → α × Machine τ) : α × Machine σ :=
  let store := machine.store
  let (result, inner) := action (machine.withStore (part store))
  (result, inner.withStore (put inner.store store))

end Machine

end ArenaMemory
