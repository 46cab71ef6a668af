import ArenaMemory.Config.Basic
import ArenaMemory.ElementType
import ArenaMemory.World.Basic

namespace ArenaMemory

inductive RegionCommand where
  | alloc (size align : Word) (label : Option String)
  | allocZeroed (size align : Word) (label : Option String)
  | allocCopy (bytes : List UInt8) (align : Word) (label : Option String)
  | allocCString (bytes : List UInt8) (label : Option String)
  | dup (bytes : List UInt8) (label : Option String)
  | allocText (text : String) (label : Option String)
  | allocValue (type : ElementType) (value : Word) (label : Option String)
  | allocValues (type : ElementType) (values : List Word) (label : Option String)
  | realloc (block : Option String) (size align : Word) (label : Option String)
  | reset
  | setLimit (limit : Option Word)

inductive TrackerCommand where
  | setBudget (budget : Option Word)
  | stats

inductive BoxCommand where
  | read
  | write (value : Word)

inductive InternerCommand where
  | intern (bytes : List UInt8)
  | internCString (bytes : List UInt8)
  | reintern (symbol : Symbol)
  | internMany (items : List (List UInt8))
  /-- Interns a stem followed by each number of a range. -/
  | internSeq (stem : String) (first stop : Word)
  | get (bytes : List UInt8)
  | getSeq (stem : String) (first stop : Word)
  | resolve (symbol : Symbol)
  | resolveText (symbol : Symbol)
  | resolveCString (symbol : Symbol)
  | list
  | clear

inductive HandleCommand where
  | info
  | alloc (size align : Word) (label : Option String)
  | zalloc (size align : Word) (label : Option String)
  /-- Gives a block back, for its own layout unless another is named. -/
  | free (block : Option String) (layout : Option (Word × Word))
  | realloc (block : Option String) (size align : Word) (label : Option String)
  | allocType (type : ElementType) (label : Option String)
  | zallocType (type : ElementType) (label : Option String)
  | allocArray (type : ElementType) (count : Word) (label : Option String)
  | zallocArray (type : ElementType) (count : Word) (label : Option String)
  | freeType (type : ElementType) (block : Option String)
  | freeArray (type : ElementType) (count : Word) (block : Option String)

inductive Command where
  | malformed
  | setCap (cap : Word)
  | newTracker (name : String) (on : Handle) (budget : Option Word)
  | newRegion (name : String) (on : Handle) (minAlign : Word) (boxed : Bool)
  | newRegionOf (name : String) (on : Handle) (config : RegionConfig)
  | newInterner (name : String) (on : Handle) (boxed : Bool)
  | newInternerOf (name : String) (on : Handle) (config : InternerConfig)
  | newBox (name : String) (on : Handle) (kind : BoxKind) (value : Word)
  | drop (name : String)
  | deinit (name : String)
  | info (name : String)
  | readBlock (label : String)
  | writeBlock (label : String) (bytes : List UInt8)
  | region (name : String) (command : RegionCommand)
  | tracker (name : String) (command : TrackerCommand)
  | box (name : String) (command : BoxCommand)
  | interner (name : String) (command : InternerCommand)
  | handle (on : Handle) (command : HandleCommand)

structure Step where
  command : Command
  watched : Option String := none

/-- What became of interning a range: how many were interned and how many were not, the first and
the last symbol, and the first failures with their numbers. -/
structure SequenceOutcome where
  interned : Nat := 0
  failed : Nat := 0
  first : Option Symbol := none
  last : Option Symbol := none
  failures : List (Nat × InternFailure) := []

inductive Reply where
  | malformed
  | missingBlock
  | wrongOwner
  | inUse
  | violation (violation : Violation)
  | internFailed (failure : InternFailure)
  | created
  | done
  | capSet
  | freed
  | nothing
  /-- A value that found no storage comes back. -/
  | handedBack (kind : BoxKind) (words : List Word)
  | dropped (count : Nat)
  | pointer (place : Option Place)
  | bytes (bytes : List UInt8)
  | bytesAt (found : Option (Place × List UInt8))
  | textAt (found : Option (Place × List UInt8))
  | valueAt (found : Option (Place × Nat))
  | valuesAt (found : Option (Place × List Nat))
  | known (count : Nat)
  | cap (cap : Option Word)
  | regionInfo (region : Region) (stateless : Bool)
  | internerInfo (interner : Interner) (stateless : Bool)
  | trackerInfo (tracker : Tracker)
  | boxInfo (kind : BoxKind) (words : List Word) (place : Place) (stateless : Bool)
  | handleInfo (stateless hasRealloc hasZalloc : Bool)
  | symbol (symbol : Symbol)
  | symbols (symbols : List Symbol)
  | sequence (outcome : SequenceOutcome)
  | lookup (symbol : Option Symbol)
  | found (symbols : List Symbol)
  | resolved (place : Place) (bytes : List UInt8)
  | text (text : Option String)
  | listing (items : List (Symbol × List UInt8))

inductive ObjectState where
  | tracker (stats : TrackerStats)
  | region (stats : RegionStats)
  | interner (count mapCapacity tableCapacity : Nat) (arena : RegionStats)

def Object.state? : Object → Option ObjectState
  | .tracker t => some (.tracker t.stats)
  | .region r _ => some (.region r.stats)
  | .interner i _ =>
    some (.interner i.count i.map.capacity i.table.capacity i.arena.stats)
  | .box .. => none

/-- A reply with what else can be seen after a command: the state of its object, the calls that
reached the window and the events, each oldest first. -/
structure Outcome where
  reply : Reply
  state : Option ObjectState
  calls : List WindowCall
  events : List Event

end ArenaMemory
