import ArenaMemory.Interner.Buffer

namespace ArenaMemory

variable {σ : Type}

/-- Where the bytes of a symbol are. The zero byte behind them is not counted. -/
structure Entry where
  addr : Word
  length : Nat
deriving DecidableEq

def Entry.layout : Layout := ⟨16, .eight⟩

def Entry.bytes (entry : Entry) (memory : Memory) : List UInt8 :=
  memory.read entry.addr entry.length

structure SymbolTable where
  /-- The capacity of the first array. -/
  initialCapacity : Nat
  buffer : Buffer := .empty
  entries : Array Entry := #[]

namespace SymbolTable

def defaultCapacity : Nat := 64

def ofCapacity (capacity : Nat) : SymbolTable :=
  { initialCapacity := max capacity 1 }

def capacity (table : SymbolTable) : Nat := table.buffer.capacity

def count (table : SymbolTable) : Nat := table.entries.size

def reserveOne (allocator : Allocator σ) (table : SymbolTable) (machine : Machine σ) :
    Except InternFailure Unit × SymbolTable × Machine σ :=
  let before := table.capacity
  if table.count < before then (.ok (), table, machine)
  else
    let after := if before = 0 then table.initialCapacity else 2 * before
    match table.buffer.resize? allocator Entry.layout after machine with
    | (none, machine) => (.error (.tableExhausted before), table, machine)
    | (some buffer, machine) =>
      let machine := if before = 0 then machine else machine.emit (.bufferGrew .table before after)
      (.ok (), { table with buffer }, machine)

def push (table : SymbolTable) (entry : Entry) : SymbolTable :=
  { table with entries := table.entries.push entry }

def get? (table : SymbolTable) (index : Nat) : Option Entry := table.entries[index]?

def clear (table : SymbolTable) : SymbolTable :=
  { table with entries := #[] }

def release (allocator : Allocator σ) (table : SymbolTable) (machine : Machine σ) :
    SymbolTable × Machine σ :=
  ({ table with buffer := .empty, entries := #[] },
    table.buffer.release allocator Entry.layout machine)

end SymbolTable

end ArenaMemory
