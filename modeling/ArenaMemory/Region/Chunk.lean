import ArenaMemory.Layout

namespace ArenaMemory

def chunkAlign : Alignment := .sixteen

def footerSize : Word := 48

/-- The usable bytes of the smallest chunk asked for without need: a page with its footer. -/
def leastUsable : Word := 4096 - footerSize

structure Chunk where
  start : Word
  /-- The bytes below the footer. -/
  usable : Word
  /-- What the backing allocator was asked for. -/
  layout : Layout
  /-- The bytes from `start` up to here are free. -/
  bump : Word
  /-- The usable bytes of this chunk and all older ones. -/
  watermark : Word
deriving DecidableEq

namespace Chunk

/-- What stands in for a chunk while a region has none: it has no byte to give. -/
def sentinel (anchor : Word) : Chunk where
  start := anchor
  usable := 0
  layout := ⟨0, chunkAlign⟩
  bump := anchor
  watermark := 0

def footer (chunk : Chunk) : Word :=
  chunk.start + chunk.usable

def remaining (chunk : Chunk) : Word :=
  chunk.bump - chunk.start

def rewind (chunk : Chunk) (minAlign : Alignment) : Chunk :=
  { chunk with bump := Word.alignDown chunk.footer minAlign.bytes }

/-- Where a block of the layout would start at the top of the free bytes. The end is rounded only
beyond the region's own alignment, of which it is a multiple. -/
def carve? (chunk : Chunk) (minAlign : Alignment) (layout : Layout) : Option Word :=
  if layout.align.bytes ≤ minAlign.bytes then
    match Word.checkedAlignUp layout.size minAlign.bytes with
    | none => none
    | some need => if chunk.bump - chunk.start < need then none else some (chunk.bump - need)
  else
    match Word.checkedAlignUp layout.size layout.align.bytes with
    | none => none
    | some need =>
      let stop := Word.alignDown chunk.bump layout.align.bytes
      if stop < chunk.start then none
      else if stop - chunk.start < need then none
      else some (stop - need)

/-- An aligned address for an empty block: below the free bytes' end, or the alignment itself where
that would be address zero. -/
def emptyBlock (chunk : Chunk) (align : Alignment) : Word :=
  let addr := Word.alignDown chunk.bump align.bytes
  if addr = 0 then align.bytes else addr

/-- Usable bytes and layout of a chunk that is to have at least `usable` usable bytes: the footer
stands on a chunk boundary and the whole is a multiple of the alignment. -/
def plan? (usable : Word) (align : Alignment) : Option (Word × Layout) := do
  let usable ← Word.checkedAlignUp usable chunkAlign.bytes
  let size ← Word.checkedAdd usable footerSize
  let size ← Word.checkedAlignUp size align.bytes
  some (usable, ⟨size, align⟩)

end Chunk

end ArenaMemory
