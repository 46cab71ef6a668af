import ArenaMemory.World.Command

namespace ArenaMemory

namespace World

def serve (world : World) (on : Handle) (origin : Origin BaseName) (label : Option String)
    (layout : Layout) (known : Nat)
    (action : Allocator Objects → Machine Objects → Option Word × Machine Objects) :
    Reply × World :=
  match world.request (action (allocator origin)) with
  | (none, world) => (.pointer none, world)
  | (some addr, world) =>
    let place := world.place origin addr layout.align
    (.pointer (some place), world.keep label { owner := on, addr, layout, known })

def serveArray (world : World) (on : Handle) (origin : Origin BaseName) (label : Option String)
    (type : ElementType) (count : Word) (zeroed : Bool) : Reply × World :=
  match type.layout.array count.toNat with
  | none => (.pointer none, world)
  | some layout =>
    world.serve on origin label layout (if zeroed then layout.size.toNat else 0) fun allocator =>
      if zeroed then allocator.zallocArray type.layout count.toNat
      else allocator.allocArray type.layout count.toNat

def owned (world : World) (on : Handle) (label : Option String) : Except Reply (Option Block) :=
  match label with
  | none => .ok none
  | some label =>
    match world.block? label with
    | none => .error .missingBlock
    | some block => if block.owner = on then .ok (some block) else .error .wrongOwner

/-- Gives a block back for a layout and forgets its label. The layout is not looked at before the
block was found. -/
def giveBack (world : World) (on : Handle) (origin : Origin BaseName) (label : Option String)
    (layout : Option Block → Except Violation Layout) : Reply × World :=
  match world.owned on label with
  | .error reply => (reply, world)
  | .ok block =>
    match layout block with
    | .error violation => (.violation violation, world)
    | .ok layout =>
      let machine := (allocator origin).free (block.map (·.addr)) layout world.machine
      let world := { world with machine }
      (.freed, match label with
        | none => world
        | some label => world.forget label)

def freeLayout (named : Option (Word × Word)) (block : Option Block) : Except Violation Layout :=
  match named with
  | some (size, align) =>
    match Layout.ofWords? size align with
    | none => .error .layoutAlignment
    | some layout => .ok layout
  | none =>
    match block with
    | none => .ok ⟨0, .one⟩
    | some block => .ok block.layout

/-- Moves a block. Its label is forgotten once the block is gone: when another came back, or when
nothing is left of it. -/
def move (world : World) (on : Handle) (origin : Origin BaseName) (label : Option String)
    (new : Layout) (newLabel : Option String) : Reply × World :=
  match world.owned on label with
  | .error reply => (reply, world)
  | .ok block =>
    let old : Layout := (block.map (·.layout)).getD ⟨0, .one⟩
    let known := min ((block.map (·.known)).getD 0) new.size.toNat
    match world.request ((allocator origin).realloc (block.map (·.addr)) old new) with
    | (none, world) =>
      (.pointer none, if new.size = 0 then forgetLabel world label else world)
    | (some addr, world) =>
      let place := world.place origin addr new.align
      (.pointer (some place),
        (forgetLabel world label).keep newLabel { owner := on, addr, layout := new, known })
where
  forgetLabel (world : World) : Option String → World
    | none => world
    | some label => world.forget label

def runHandle (world : World) (on : Handle) (origin : Origin BaseName) :
    HandleCommand → Reply × World
  | .info =>
    let allocator := allocator origin
    (.handleInfo allocator.stateless allocator.nativeRealloc.isSome allocator.nativeZalloc.isSome,
      world)
  | .alloc size align label =>
    withLayout size align fun layout => world.serve on origin label layout 0 (·.alloc layout)
  | .zalloc size align label =>
    withLayout size align fun layout =>
      world.serve on origin label layout size.toNat (·.zalloc layout)
  | .free block named => world.giveBack on origin block (freeLayout named)
  | .realloc block size align label =>
    withLayout size align fun layout => world.move on origin block layout label
  | .allocType type label => world.serve on origin label type.layout 0 (·.alloc type.layout)
  | .zallocType type label =>
    world.serve on origin label type.layout type.layout.size.toNat (·.zalloc type.layout)
  | .allocArray type count label => world.serveArray on origin label type count false
  | .zallocArray type count label => world.serveArray on origin label type count true
  | .freeType type block => world.giveBack on origin block fun _ => .ok type.layout
  | .freeArray type count block =>
    world.giveBack on origin block fun _ =>
      match type.layout.array count.toNat with
      | none => .error .arrayLayout
      | some layout => .ok layout
where
  withLayout (size align : Word) (run : Layout → Reply × World) : Reply × World :=
    match Layout.ofWords? size align with
    | none => (.violation .layoutAlignment, world)
    | some layout => run layout

end World

end ArenaMemory
