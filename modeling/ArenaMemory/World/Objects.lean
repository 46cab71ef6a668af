import ArenaMemory.World.Command

namespace ArenaMemory

namespace World

def serveRegion (world : World) (item : Item BaseName) (region : Region) (label : Option String)
    (layout : Layout) (known : Nat)
    (action : Allocator Objects → Region → Machine Objects →
      Option Word × Region × Machine Objects) : Option (Word × Place) × World :=
  let (result, region, machine) := action (allocator item.origin) region world.machine
  let world := { world with machine }.mapStore (·.putRegion item.name region)
  match result with
  | none => (none, world)
  | some addr =>
    let place := world.place (.region item.name item.origin) addr layout.align
    (some (addr, place), world.keep label { owner := .object item.name, addr, layout, known })

def serveCopy (world : World) (item : Item BaseName) (region : Region) (label : Option String)
    (bytes : List UInt8) (align : Alignment) (shown : Nat) :
    Option (Place × List UInt8) × World :=
  match Layout.ofCount? bytes.length align with
  | none => (none, world)
  | some layout =>
    let (result, world) := world.serveRegion item region label layout bytes.length
      fun backing region => region.allocCopy backing bytes align
    (result.map fun (addr, place) => (place, world.machine.memory.read addr shown), world)

def runRegion (world : World) (item : Item BaseName) (region : Region) :
    RegionCommand → Reply × World
  | .alloc size align label =>
    withLayout size align fun layout =>
      pointer (world.serveRegion item region label layout 0
        fun backing region => region.alloc backing layout)
  | .allocZeroed size align label =>
    withLayout size align fun layout =>
      pointer (world.serveRegion item region label layout size.toNat
        fun backing region => region.allocZeroed backing layout)
  | .allocCopy bytes align label =>
    withLayout 0 align fun layout =>
      let (result, world) := world.serveCopy item region label bytes layout.align 0
      (.pointer (result.map (·.1)), world)
  | .allocCString bytes label =>
    let copy := bytes.takeWhile (· ≠ 0) ++ [0]
    let (result, world) := world.serveCopy item region label copy .one copy.length
    (.bytesAt result, world)
  | .dup bytes label =>
    let (result, world) := world.serveCopy item region label (bytes ++ [0]) .one bytes.length
    (.bytesAt result, world)
  | .allocText text label =>
    let bytes := text.toUTF8.toList
    let (result, world) := world.serveCopy item region label bytes .one bytes.length
    (.textAt result, world)
  | .allocValue type value label =>
    let layout := type.layout
    let (result, world) := world.serveRegion item region label layout layout.size.toNat
      fun backing region => region.allocValues backing layout [value.toNat]
    (.valueAt (result.map fun (addr, place) => (place, readNumber world type addr)), world)
  | .allocValues type values label =>
    match type.layout.array values.length with
    | none => (.valuesAt none, world)
    | some layout =>
      let (result, world) := world.serveRegion item region label layout layout.size.toNat
        fun backing region => region.allocValues backing type.layout (values.map (·.toNat))
      (.valuesAt (result.map fun (addr, place) =>
        (place, (List.range values.length).map fun i =>
          readNumber world type (addr + UInt64.ofNat (i * type.layout.size.toNat)))), world)
  | .realloc label size align newLabel =>
    match label with
    | none => move none size align newLabel
    | some label =>
      match world.block? label with
      | none => (.missingBlock, world)
      | some block => if size = 0 then (.pointer none, world) else move (some block) size align newLabel
  | .reset =>
    if world.machine.store.isUsed item.name then (.inUse, world)
    else
      let (region, machine) := region.reset (allocator item.origin) world.machine
      let world := { world with machine }.mapStore (·.putRegion item.name region)
      (.done, world.forgetOwned (.object item.name))
  | .setLimit limit =>
    (.cap limit, world.mapStore (·.putRegion item.name (region.setLimit limit)))
where
  withLayout (size align : Word) (run : Layout → Reply × World) : Reply × World :=
    match Layout.ofWords? size align with
    | none => (.violation .layoutAlignment, world)
    | some layout => run layout
  pointer : Option (Word × Place) × World → Reply × World
    | (result, world) => (.pointer (result.map (·.2)), world)
  readNumber (world : World) (type : ElementType) (addr : Word) : Nat :=
    ofLittleEndian (world.machine.memory.read addr type.layout.size.toNat)
  /-- Moves a block into the region; as many of its bytes are known as were copied. -/
  move (block : Option Block) (size align : Word) (label : Option String) : Reply × World :=
    withLayout size align fun layout =>
      let known := min ((block.map (·.known)).getD 0) size.toNat
      let oldSize := (block.map (·.layout.size)).getD 0
      pointer (world.serveRegion item region label layout known
        fun backing region => region.realloc backing (block.map (·.addr)) oldSize layout)

def runTracker (world : World) (item : Item BaseName) (tracker : Tracker) :
    TrackerCommand → Reply × World
  | .setBudget budget =>
    (.cap budget, world.mapStore (·.put item.name (.tracker (tracker.setBudget budget))))
  | .stats => (.trackerInfo tracker, world)

/-- Runs a command on a boxed value. A value of three words is written in the middle. -/
def runBox (world : World) (item : Item BaseName) (kind : BoxKind) (addr : Word) :
    BoxCommand → Reply × World
  | .read => (shown world, world)
  | .write value =>
    let target := if kind = .triple then addr + 8 else addr
    let machine := world.machine.mapMemory (·.writeWords target [value])
    let world := { world with machine }
    (shown world, world)
where
  shown (world : World) : Reply :=
    let words := world.machine.memory.readWords addr (kind.words 0).length
    .boxInfo kind words (world.place item.origin addr kind.layout.align)
      (allocator item.origin).stateless

def internNext (allocator : Allocator Objects) (stem : List UInt8)
    (state : SequenceOutcome × Interner × Machine Objects) (k : Nat) :
    SequenceOutcome × Interner × Machine Objects :=
  let (outcome, interner, machine) := state
  match interner.intern contentHash allocator (stem ++ (toString k).toUTF8.toList) machine with
  | (.ok symbol, interner, machine) =>
    ({ outcome with
        interned := outcome.interned + 1
        first := outcome.first.or (some symbol)
        last := some symbol }, interner, machine)
  | (.error failure, interner, machine) =>
    ({ outcome with
        failed := outcome.failed + 1
        failures :=
          if outcome.failed < 3 then outcome.failures ++ [(k, failure)] else outcome.failures },
      interner, machine)

def runInterner (world : World) (item : Item BaseName) (interner : Interner) (home : Option Word) :
    InternerCommand → Reply × World
  | .intern bytes => intern bytes
  | .internCString bytes => intern (bytes.takeWhile (· ≠ 0))
  | .reintern symbol =>
    match interner.resolve symbol memory with
    | .error violation => (.violation violation, world)
    | .ok bytes => intern bytes
  | .internMany items =>
    let (result, interner, machine) :=
      interner.internMany contentHash (allocator item.origin) items world.machine
    (match result with
      | .ok symbols => .symbols symbols
      | .error failure => .internFailed failure, keepInterner interner machine)
  | .internSeq stem first stop =>
    let numbers := (List.range (stop.toNat - first.toNat)).map (first.toNat + ·)
    let (outcome, interner, machine) := numbers.foldl
      (internNext (allocator item.origin) stem.toUTF8.toList) ({}, interner, world.machine)
    (.sequence outcome, keepInterner interner machine)
  | .get bytes => (.lookup (interner.get? contentHash bytes memory), world)
  | .getSeq stem first stop =>
    let numbers := (List.range (stop.toNat - first.toNat)).map (first.toNat + ·)
    (.found (numbers.filterMap fun k =>
      interner.get? contentHash (stem.toUTF8.toList ++ (toString k).toUTF8.toList) memory), world)
  | .resolve symbol =>
    match interner.entry symbol with
    | .error violation => (.violation violation, world)
    | .ok entry => (.resolved (placeOf entry) (entry.bytes memory), world)
  | .resolveText symbol =>
    (match interner.resolveText symbol memory with
      | .error violation => .violation violation
      | .ok text => .text text, world)
  | .resolveCString symbol =>
    (match interner.resolveCString symbol memory with
      | .error violation => .violation violation
      | .ok bytes => .bytes bytes, world)
  | .list => (.listing (interner.toList memory), world)
  | .clear =>
    let (interner, machine) := interner.clear (allocator item.origin) world.machine
    (.done, keepInterner interner machine)
where
  memory : Memory := world.machine.memory
  keepInterner (interner : Interner) (machine : Machine Objects) : World :=
    { world with machine }.mapStore (·.put item.name (.interner interner home))
  intern (bytes : List UInt8) : Reply × World :=
    let (result, interner, machine) :=
      interner.intern contentHash (allocator item.origin) bytes world.machine
    (match result with
      | .ok symbol => .symbol symbol
      | .error failure => .internFailed failure, keepInterner interner machine)
  /-- A copy lies in the interner's own region, which stands on the interner's allocator. -/
  placeOf (entry : Entry) : Place :=
    if interner.arena.chunks.isEmpty then .unfixed true
    else world.place item.origin entry.addr .one

end World

end ArenaMemory
