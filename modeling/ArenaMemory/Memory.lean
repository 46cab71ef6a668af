import Std.Data.HashMap
import ArenaMemory.Word

namespace ArenaMemory

structure Memory where
  cells : Std.HashMap Word UInt8 := {}

namespace Memory

def get (memory : Memory) (addr : Word) : UInt8 :=
  memory.cells.getD addr 0

def set (memory : Memory) (addr : Word) (byte : UInt8) : Memory :=
  ⟨memory.cells.insert addr byte⟩

def read (memory : Memory) (addr : Word) (count : Nat) : List UInt8 :=
  (List.range count).map fun i => memory.get (addr + UInt64.ofNat i)

def write (memory : Memory) (addr : Word) : List UInt8 → Memory
  | [] => memory
  | byte :: bytes => (memory.set addr byte).write (addr + 1) bytes

def copy (memory : Memory) (source target : Word) (count : Nat) : Memory :=
  memory.write target (memory.read source count)

def eraseFrom (cells : Std.HashMap Word UInt8) (addr : Word) : Nat → Std.HashMap Word UInt8
  | 0 => cells
  | count + 1 => eraseFrom (cells.erase addr) (addr + 1) count

/-- Zeroes `count` bytes from `addr` on. A zero byte is one that is not held, so a range larger than
what is held is cleared by looking at the held cells instead. -/
def clear (memory : Memory) (addr count : Word) : Memory :=
  if count.toNat ≤ memory.cells.size then ⟨eraseFrom memory.cells addr count.toNat⟩
  else ⟨memory.cells.filter fun a _ => count ≤ a - addr⟩

/-- Scans at most `count` bytes from `addr` on for a zero; `seen` holds those before, last first. -/
def scanForZero (memory : Memory) (addr : Word) (seen : List UInt8) : Nat → List UInt8
  | 0 => seen.reverse
  | count + 1 =>
    let byte := memory.get addr
    if byte = 0 then seen.reverse else memory.scanForZero (addr + 1) (byte :: seen) count

/-- The bytes from `addr` on before the first zero. Nothing but a zero bounds the scan, which may
go once around the whole address range. -/
def cstring (memory : Memory) (addr : Word) : List UInt8 :=
  memory.scanForZero addr [] UInt64.size

end Memory

def littleEndian (width value : Nat) : List UInt8 :=
  (List.range width).map fun i => UInt8.ofNat (value >>> (8 * i))

def ofLittleEndian (bytes : List UInt8) : Nat :=
  bytes.foldr (fun byte rest => byte.toNat + 256 * rest) 0

end ArenaMemory
