import ArenaMemory.Allocator.Basic
import ArenaMemory.Region.Chunk
import ArenaMemory.Violation

namespace ArenaMemory

variable {σ : Type}

structure Region where
  /-- The address that empty blocks of a region without chunks are placed at. -/
  anchor : Word
  /-- Every block of positive size is aligned to this at least. -/
  minAlign : Alignment
  minAlign_le : minAlign.bytes ≤ chunkAlign.bytes
  /-- The most usable bytes that the region may obtain. -/
  limit : Option Word := none
  chunks : List Chunk := []
deriving DecidableEq

structure RegionStats where
  allocated : Word
  chunkCount : Nat
  remaining : Word
deriving DecidableEq

def RegionStats.describe (stats : RegionStats) : String :=
  s!"RegionStats \x7b allocated_bytes: {stats.allocated}, chunk_count: {stats.chunkCount}, "
    ++ s!"current_chunk_remaining: {stats.remaining} \x7d"

inductive ChunkRefusal where
  | overflow
  | limit (limit allocated : Word)

namespace Region

def create (anchor minAlign : Word) : Except Violation Region :=
  match Alignment.ofWord? minAlign with
  | none => .error .minAlign
  | some align =>
    if h : align.bytes ≤ chunkAlign.bytes then .ok { anchor, minAlign := align, minAlign_le := h }
    else .error .minAlignTooLarge

/-- The chunk that blocks are taken from: the newest, or the sentinel. -/
def current (region : Region) : Chunk :=
  region.chunks.headD (.sentinel region.anchor)

def setCurrent (region : Region) (chunk : Chunk) : Region :=
  match region.chunks with
  | [] => region
  | _ :: older => { region with chunks := chunk :: older }

def allocated (region : Region) : Word :=
  region.current.watermark

def stats (region : Region) : RegionStats :=
  ⟨region.allocated, region.chunks.length, region.current.remaining⟩

def describe (region : Region) : String :=
  s!"Region \x7b min_align: {region.minAlign.bytes}, "
    ++ s!"allocation_limit: {describeOption region.limit}, stats: {region.stats.describe} \x7d"

def bump? (region : Region) (layout : Layout) : Option (Word × Region) :=
  match region.current.carve? region.minAlign layout with
  | none => none
  | some addr => some (addr, region.setCurrent { region.current with bump := addr })

/-- What a request needs of a chunk: its size, rounded to its alignment and the region's. -/
def need? (region : Region) (layout : Layout) : Option Word :=
  Word.checkedAlignUp layout.size (max layout.align.bytes region.minAlign.bytes)

/-- The usable bytes of the next chunk. It should double the newest one; a limit that forbids this
is used up as far as whole multiples of the chunk alignment go, if the request still fits. -/
def nextUsable (region : Region) (layout : Layout) : Except ChunkRefusal Word :=
  match region.need? layout with
  | none => .error .overflow
  | some need =>
    let doubled := (Word.checkedMul region.current.usable 2).getD Word.maxValue
    let preferred := max (max doubled leastUsable) need
    let preferred := (Word.checkedAlignUp preferred chunkAlign.bytes).getD
      (Word.alignDown Word.maxValue chunkAlign.bytes)
    match region.limit with
    | none => .ok preferred
    | some limit =>
      let left := Word.saturatingSub limit region.allocated
      if preferred ≤ left then .ok preferred
      else
        match Word.checkedAlignUp need chunkAlign.bytes with
        | none => .error .overflow
        | some need =>
          if left < need then .error (.limit limit region.allocated)
          else .ok (Word.alignDown left chunkAlign.bytes)

def grow (backing : Allocator σ) (region : Region) (usable : Word) (align : Alignment)
    (machine : Machine σ) : Option Region × Machine σ :=
  match Chunk.plan? usable align with
  | none => (none, machine)
  | some (usable, layout) =>
    match backing.alloc layout machine with
    | (none, machine) => (none, machine)
    | (some start, machine) =>
      let watermark := Word.saturatingAdd region.allocated usable
      let chunk : Chunk := { start, usable, layout, bump := start, watermark }
      (some { region with chunks := chunk.rewind region.minAlign :: region.chunks },
        machine.emit (.chunkAcquired layout.size align.bytes watermark))

def allocSlow (backing : Allocator σ) (region : Region) (layout : Layout) (machine : Machine σ) :
    Option Word × Region × Machine σ :=
  match region.nextUsable layout with
  | .error .overflow => (none, region, machine)
  | .error (.limit limit allocated) =>
    (none, region, machine.emit (.limitReached layout.size limit allocated))
  | .ok usable =>
    let align := (chunkAlign.strictest region.minAlign).strictest layout.align
    match region.grow backing usable align machine with
    | (none, machine) => (none, region, machine)
    | (some region, machine) =>
      match region.bump? layout with
      | none => (none, region, machine)
      | some (addr, region) => (some addr, region, machine)

def alloc (backing : Allocator σ) (region : Region) (layout : Layout) (machine : Machine σ) :
    Option Word × Region × Machine σ :=
  if layout.size = 0 then (some (region.current.emptyBlock layout.align), region, machine)
  else
    match region.bump? layout with
    | some (addr, region) => (some addr, region, machine)
    | none => region.allocSlow backing layout machine

def releaseChunks (backing : Allocator σ) (chunks : List Chunk) (machine : Machine σ) : Machine σ :=
  chunks.foldl
    (fun machine chunk =>
      backing.release chunk.start chunk.layout (machine.emit (.chunkReleased chunk.layout.size)))
    machine

def deinit (backing : Allocator σ) (region : Region) (machine : Machine σ) : Region × Machine σ :=
  ({ region with chunks := [] }, releaseChunks backing region.chunks machine)

def reset (backing : Allocator σ) (region : Region) (machine : Machine σ) : Region × Machine σ :=
  match region.chunks with
  | [] => (region, machine)
  | newest :: older =>
    let machine := releaseChunks backing older machine
    let kept := { newest.rewind region.minAlign with watermark := newest.usable }
    ({ region with chunks := [kept] }, machine.emit (.regionReset newest.usable))

/-- Caps the usable bytes from now on. What was obtained before stays. -/
def setLimit (region : Region) (limit : Option Word) : Region :=
  { region with limit }

end Region

end ArenaMemory
