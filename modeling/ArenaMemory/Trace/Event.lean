import ArenaMemory.Word
import ArenaMemory.Interner.Failure

namespace ArenaMemory

inductive Level where
  | error
  | warn
  | info
  | debug
  | trace
deriving DecidableEq

namespace Level

def detail : Level → Nat
  | .error => 1
  | .warn => 2
  | .info => 3
  | .debug => 4
  | .trace => 5

def name : Level → String
  | .error => "ERROR"
  | .warn => "WARN"
  | .info => "INFO"
  | .debug => "DEBUG"
  | .trace => "TRACE"

def lowerName : Level → String
  | .error => "error"
  | .warn => "warn"
  | .info => "info"
  | .debug => "debug"
  | .trace => "trace"

def all : List Level := [.error, .warn, .info, .debug, .trace]

end Level

inductive GrownBuffer where
  | table
  | map
deriving DecidableEq

def GrownBuffer.name : GrownBuffer → String
  | .table => "table"
  | .map => "map"

inductive Event where
  /-- A chunk was obtained; `watermark` is what the region may now use in all. -/
  | chunkAcquired (size align watermark : Word)
  | chunkReleased (size : Word)
  | limitReached (requested limit allocated : Word)
  | regionReset (retained : Word)
  | bufferGrew (buffer : GrownBuffer) (before after : Nat)
  | internFailed (length : Nat) (failure : InternFailure)
  | budgetRefused (size : Word) (budget : Option Word)
  | heapRefused (size align : Word)
deriving DecidableEq

/-- What an event's field holds. A quoted text stands in quotes on a written line, a plain one does
not. -/
inductive FieldValue where
  | number (n : Nat)
  | quoted (s : String)
  | plain (s : String)
deriving DecidableEq

def describeOption : Option Word → String
  | none => "None"
  | some n => s!"Some({n})"

namespace Event

def level : Event → Level
  | .chunkAcquired .. | .chunkReleased .. | .budgetRefused .. => .trace
  | .limitReached .. | .regionReset .. | .bufferGrew .. | .heapRefused .. => .debug
  | .internFailed .. => .warn

def target : Event → String
  | .chunkAcquired .. | .chunkReleased .. | .limitReached .. | .regionReset .. => "strata::region"
  | .bufferGrew .. | .internFailed .. => "strata::interner"
  | .budgetRefused .. => "strata::tracking"
  | .heapRefused .. => "strata::system"

def message : Event → String
  | .chunkAcquired .. => "chunk acquired"
  | .chunkReleased .. => "chunk released"
  | .limitReached .. => "allocation limit reached"
  | .regionReset .. => "region reset"
  | .bufferGrew .. => "interner buffer grew"
  | .internFailed .. => "intern failed"
  | .budgetRefused .. => "request refused by budget"
  | .heapRefused .. => "system allocation failed"

def fields : Event → List (String × FieldValue)
  | .chunkAcquired size align watermark =>
    [("event", .quoted "chunk_acquired"), ("size_bytes", .number size.toNat),
      ("align", .number align.toNat), ("watermark", .number watermark.toNat)]
  | .chunkReleased size =>
    [("event", .quoted "chunk_released"), ("size_bytes", .number size.toNat)]
  | .limitReached requested limit allocated =>
    [("event", .quoted "allocation_limit"), ("requested", .number requested.toNat),
      ("limit", .number limit.toNat), ("allocated", .number allocated.toNat)]
  | .regionReset retained =>
    [("event", .quoted "region_reset"), ("retained_bytes", .number retained.toNat)]
  | .bufferGrew buffer before after =>
    [("event", .quoted "interner_grow"), ("buffer", .quoted buffer.name),
      ("old_capacity", .number before), ("new_capacity", .number after)]
  | .internFailed length failure =>
    [("event", .quoted "intern_failure"), ("len", .number length),
      ("error", .plain failure.message)]
  | .budgetRefused size budget =>
    [("size", .number size.toNat), ("budget", .plain (describeOption budget))]
  | .heapRefused size align =>
    [("size", .number size.toNat), ("align", .number align.toNat)]

def fieldNames (event : Event) : List String :=
  "message" :: event.fields.map (·.1)

end Event

end ArenaMemory
