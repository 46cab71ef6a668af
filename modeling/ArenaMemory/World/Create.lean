import ArenaMemory.World.Command

namespace ArenaMemory

namespace World

def add (world : World) (name : String) (origin : Origin BaseName) (object : Object) : World :=
  world.mapStore (·.add { name, origin, object })

def addBoxed (world : World) (name : String) (origin : Origin BaseName) (layout : Layout)
    (object : Word → Object) : Reply × World :=
  match world.request ((allocator origin).box layout fun _ memory => memory) with
  | (none, world) => (.nothing, world)
  | (some home, world) => (.created, world.add name origin (object home))

def newTracker (world : World) (name : String) (origin : Origin BaseName) (budget : Option Word) :
    Reply × World :=
  (.created, world.add name origin (.tracker { budget }))

def newRegion (world : World) (name : String) (origin : Origin BaseName) (minAlign : Word)
    (boxed : Bool) : Reply × World :=
  match Region.create anchor minAlign with
  | .error violation => (.violation violation, world)
  | .ok region =>
    if boxed then
      world.addBoxed name origin Object.regionLayout fun home => .region region (some home)
    else (.created, world.add name origin (.region region none))

def newRegionOf (world : World) (name : String) (origin : Origin BaseName) (config : RegionConfig) :
    Reply × World :=
  match Region.create anchor config.minAlign with
  | .error violation => (.violation violation, world)
  | .ok region =>
    (.created, world.add name origin (.region (region.setLimit config.allocationLimit) none))

def newInterner (world : World) (name : String) (origin : Origin BaseName) (boxed : Bool) :
    Reply × World :=
  let interner := Interner.create anchor .threeQuarters SymbolTable.defaultCapacity none
  if boxed then
    world.addBoxed name origin Object.internerLayout fun home => .interner interner (some home)
  else (.created, world.add name origin (.interner interner none))

def newInternerOf (world : World) (name : String) (origin : Origin BaseName)
    (config : InternerConfig) : Reply × World :=
  match LoadFactor.ofBinary64? config.loadFactor with
  | none => (.violation .loadFactor, world)
  | some loadFactor =>
    let capacity := config.initialCapacity.toNat
    let interner := Interner.create anchor loadFactor capacity config.arenaLimit
    match interner.presize (allocator origin) capacity world.machine with
    | (.error failure, machine) => (.internFailed failure, { world with machine })
    | (.ok interner, machine) =>
      (.created, { world with machine }.add name origin (.interner interner none))

/-- Boxes a plain value. One that finds no storage comes back and is dropped by whoever gets it. -/
def newBox (world : World) (name : String) (origin : Origin BaseName) (kind : BoxKind)
    (value : Word) : Reply × World :=
  let words := kind.words value
  let init (addr : Word) (memory : Memory) : Memory := memory.writeWords addr words
  match world.request ((allocator origin).box kind.layout init) with
  | (some addr, world) => (.created, world.add name origin (.box kind addr))
  | (none, world) =>
    (.handedBack kind words, { world with machine := release.dropValue kind world.machine })

def create (world : World) (name : String) (on : Handle)
    (make : World → Origin BaseName → Reply × World) : Reply × World :=
  match world.find? name, world.origin? on with
  | none, some origin => make world origin
  | _, _ => (.malformed, world)

def drop (world : World) (name : String) : Reply × World :=
  match world.find? name with
  | none => (.malformed, world)
  | some item =>
    if world.machine.store.isUsed name then (.inUse, world)
    else
      let world := world.dropItem item
      (.dropped world.machine.store.dropped, world)

def deinit (world : World) (name : String) : Reply × World :=
  match world.find? name with
  | some { origin, object := .region region home, .. } =>
    if world.machine.store.isUsed name then (.inUse, world)
    else
      let (region, machine) := region.deinit (allocator origin) world.machine
      let world := { world with machine }.mapStore (·.put name (.region region home))
      (.done, world.forgetOwned (.object name))
  | some { origin, object := .interner interner home, .. } =>
    let (interner, machine) := interner.deinit (allocator origin) world.machine
    (.done, { world with machine }.mapStore (·.put name (.interner interner home)))
  | _ => (.malformed, world)

def info (world : World) (name : String) : Reply :=
  match world.find? name with
  | some { origin, object := .region region _, .. } =>
    .regionInfo region (allocator origin).stateless
  | some { origin, object := .interner interner _, .. } =>
    .internerInfo interner (allocator origin).stateless
  | _ => .malformed

end World

end ArenaMemory
