import ArenaMemory.Region.Basic

namespace ArenaMemory

namespace Region

variable {σ : Type}

def allocZeroed (backing : Allocator σ) (region : Region) (layout : Layout) (machine : Machine σ) :
    Option Word × Region × Machine σ :=
  match region.alloc backing layout machine with
  | (none, region, machine) => (none, region, machine)
  | (some addr, region, machine) =>
    (some addr, region, machine.mapMemory (·.clear addr layout.size))

def allocCopy (backing : Allocator σ) (region : Region) (bytes : List UInt8) (align : Alignment)
    (machine : Machine σ) : Option Word × Region × Machine σ :=
  match Layout.ofCount? bytes.length align with
  | none => (none, region, machine)
  | some layout =>
    match region.alloc backing layout machine with
    | (none, region, machine) => (none, region, machine)
    | (some addr, region, machine) => (some addr, region, machine.mapMemory (·.write addr bytes))

def dup (backing : Allocator σ) (region : Region) (bytes : List UInt8) (machine : Machine σ) :
    Option Word × Region × Machine σ :=
  region.allocCopy backing (bytes ++ [0]) .one machine

def allocValues (backing : Allocator σ) (region : Region) (element : Layout) (values : List Nat)
    (machine : Machine σ) : Option Word × Region × Machine σ :=
  region.allocCopy backing (values.flatMap (littleEndian element.size.toNat)) element.align machine

/-- Moves a block to fresh room. The old bytes stay readable, and an empty new size leaves the old
block alone. -/
def realloc (backing : Allocator σ) (region : Region) (block : Option Word) (oldSize : Word)
    (layout : Layout) (machine : Machine σ) : Option Word × Region × Machine σ :=
  match block with
  | none => region.alloc backing layout machine
  | some old =>
    if layout.size = 0 then (none, region, machine)
    else
      match region.alloc backing layout machine with
      | (none, region, machine) => (none, region, machine)
      | (some addr, region, machine) =>
        (some addr, region,
          machine.mapMemory (·.copy old addr (min oldSize layout.size).toNat))

end Region

variable {σ : Type}

/-- The handle of a region that the store holds, over its backing allocator. Giving a block back
does nothing. -/
def Allocator.ofRegion (backing : Allocator σ) (region? : σ → Option Region)
    (put : Region → σ → σ) : Allocator σ where
  stateless := false
  alloc layout := serve fun region => region.alloc backing layout
  release _ _ machine := machine
  nativeRealloc := some fun addr old new =>
    serve fun region => region.realloc backing (some addr) old.size new
  nativeZalloc := some fun layout => serve fun region => region.allocZeroed backing layout
where
  serve (request : Region → Machine σ → Option Word × Region × Machine σ) (machine : Machine σ) :
      Option Word × Machine σ :=
    match region? machine.store with
    | none => (none, machine)
    | some region =>
      let (result, region, machine) := request region machine
      (result, { machine with store := put region machine.store })

end ArenaMemory
