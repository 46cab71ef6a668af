import ArenaMemory.Interner.SymbolMap
import ArenaMemory.Interner.SymbolTable
import ArenaMemory.Region.Copy

namespace ArenaMemory

variable {σ : Type}

structure Symbol where
  id : UInt32
deriving DecidableEq

namespace Symbol

def index (symbol : Symbol) : Nat := symbol.id.toNat

def describe (symbol : Symbol) : String := s!"Symbol({symbol.id})"

instance : Ord Symbol := ⟨fun a b => compare a.id b.id⟩

end Symbol

/-- How contents are hashed. Nothing but speed depends on it. -/
abbrev ContentHash := List UInt8 → UInt64

structure Interner where
  arena : Region
  map : SymbolMap
  table : SymbolTable

namespace Interner

def maxSymbols : Nat := 0xFFFFFFFF

def create (anchor : Word) (loadFactor : LoadFactor) (initialCapacity : Nat)
    (arenaLimit : Option Word) : Interner where
  arena := { anchor, minAlign := .one, minAlign_le := by decide, limit := arenaLimit }
  map := { loadFactor }
  table := .ofCapacity initialCapacity

/-- Gives all memory back: the copies, then the slots, then the entries. The interner may be used
again. -/
def deinit (allocator : Allocator σ) (interner : Interner) (machine : Machine σ) :
    Interner × Machine σ :=
  let (arena, machine) := interner.arena.deinit allocator machine
  let (map, machine) := interner.map.release allocator machine
  let (table, machine) := interner.table.release allocator machine
  ({ arena, map, table }, machine)

/-- Makes room for the initial capacity at once. What was obtained before a failure is given
back. -/
def presize (allocator : Allocator σ) (interner : Interner) (capacity : Nat) (machine : Machine σ) :
    Except InternFailure Interner × Machine σ :=
  if capacity = 0 then (.ok interner, machine)
  else
    match interner.table.reserveOne allocator machine with
    | (.error failure, table, machine) =>
      (.error failure, ({ interner with table }.deinit allocator machine).2)
    | (.ok (), table, machine) =>
      match interner.map.reserve allocator capacity machine with
      | (.error failure, map, machine) =>
        (.error failure, ({ interner with table, map }.deinit allocator machine).2)
      | (.ok (), map, machine) => (.ok { interner with table, map }, machine)

def lookup (interner : Interner) (hash : UInt64) (bytes : List UInt8) (memory : Memory) :
    Option Symbol :=
  let holds (id : UInt32) : Bool :=
    match interner.table.get? id.toNat with
    | none => false
    | some entry => entry.length = bytes.length && entry.bytes memory = bytes
  (interner.map.find hash holds).map Symbol.mk

/-- Issues a symbol for bytes that were not interned. Room is made in the table and in the map
before the bytes are copied: without a new entry the growth of either shows in no answer. -/
def insert (allocator : Allocator σ) (interner : Interner) (hash : UInt64) (bytes : List UInt8)
    (machine : Machine σ) : Except InternFailure Symbol × Interner × Machine σ :=
  let index := interner.table.count
  if maxSymbols ≤ index then (.error .symbolsExhausted, interner, machine)
  else
    match interner.table.reserveOne allocator machine with
    | (.error failure, table, machine) => (.error failure, { interner with table }, machine)
    | (.ok (), table, machine) =>
      match interner.map.reserve allocator 1 machine with
      | (.error failure, map, machine) => (.error failure, { interner with table, map }, machine)
      | (.ok (), map, machine) =>
        match interner.arena.dup allocator bytes machine with
        | (none, arena, machine) =>
          (.error (.arenaExhausted bytes.length), { arena, map, table }, machine)
        | (some addr, arena, machine) =>
          let id := UInt32.ofNat index
          (.ok ⟨id⟩,
            { arena, map := map.insertUnique hash id, table := table.push ⟨addr, bytes.length⟩ },
            machine)

def intern (contentHash : ContentHash) (allocator : Allocator σ) (interner : Interner)
    (bytes : List UInt8) (machine : Machine σ) :
    Except InternFailure Symbol × Interner × Machine σ :=
  let hash := contentHash bytes
  match interner.lookup hash bytes machine.memory with
  | some symbol => (.ok symbol, interner, machine)
  | none =>
    match interner.insert allocator hash bytes machine with
    | (.ok symbol, interner, machine) => (.ok symbol, interner, machine)
    | (.error failure, interner, machine) =>
      (.error failure, interner, machine.emit (.internFailed bytes.length failure))

def internMany (contentHash : ContentHash) (allocator : Allocator σ) (interner : Interner)
    (items : List (List UInt8)) (machine : Machine σ) :
    Except InternFailure (List Symbol) × Interner × Machine σ :=
  match items with
  | [] => (.ok [], interner, machine)
  | bytes :: rest =>
    match interner.intern contentHash allocator bytes machine with
    | (.error failure, interner, machine) => (.error failure, interner, machine)
    | (.ok symbol, interner, machine) =>
      match interner.internMany contentHash allocator rest machine with
      | (.error failure, interner, machine) => (.error failure, interner, machine)
      | (.ok symbols, interner, machine) => (.ok (symbol :: symbols), interner, machine)

def get? (contentHash : ContentHash) (interner : Interner) (bytes : List UInt8) (memory : Memory) :
    Option Symbol :=
  interner.lookup (contentHash bytes) bytes memory

def count (interner : Interner) : Nat := interner.table.count

def entry (interner : Interner) (symbol : Symbol) : Except Violation Entry :=
  match interner.table.get? symbol.index with
  | none => .error (.symbolOutOfRange symbol.id interner.count)
  | some entry => .ok entry

def resolve (interner : Interner) (symbol : Symbol) (memory : Memory) :
    Except Violation (List UInt8) :=
  (interner.entry symbol).map (·.bytes memory)

def resolveText (interner : Interner) (symbol : Symbol) (memory : Memory) :
    Except Violation (Option String) :=
  (interner.resolve symbol memory).map fun bytes => String.fromUTF8? ⟨bytes.toArray⟩

def resolveCString (interner : Interner) (symbol : Symbol) (memory : Memory) :
    Except Violation (List UInt8) :=
  (interner.entry symbol).map fun entry => memory.cstring entry.addr

def toList (interner : Interner) (memory : Memory) : List (Symbol × List UInt8) :=
  interner.table.entries.toList.zipIdx.map fun (entry, index) =>
    (⟨UInt32.ofNat index⟩, entry.bytes memory)

/-- Forgets every symbol. The newest chunk of copies, the slots and the entries stay for reuse. -/
def clear (allocator : Allocator σ) (interner : Interner) (machine : Machine σ) :
    Interner × Machine σ :=
  let (arena, machine) := interner.arena.reset allocator machine
  ({ arena, map := interner.map.clear, table := interner.table.clear }, machine)

def describe (interner : Interner) : String :=
  s!"Interner \x7b count: {interner.count}, map_capacity: {interner.map.capacity}, "
    ++ s!"table_capacity: {interner.table.capacity}, arena: {interner.arena.stats.describe} \x7d"

end Interner

end ArenaMemory
