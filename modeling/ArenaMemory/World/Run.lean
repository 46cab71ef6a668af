import ArenaMemory.World.Create
import ArenaMemory.World.Handles
import ArenaMemory.World.Objects

namespace ArenaMemory

namespace World

def writeBlock (world : World) (label : String) (bytes : List UInt8) : Reply × World :=
  match world.block? label with
  | none => (.missingBlock, world)
  | some block =>
    if block.layout.size.toNat < bytes.length then (.malformed, world)
    else
      let known := max block.known bytes.length
      let machine := world.machine.mapMemory (·.write block.addr bytes)
      (.known known, { world with machine }.keep (some label) { block with known })

def readBlock (world : World) (label : String) : Reply :=
  match world.block? label with
  | none => .missingBlock
  | some block => .bytes (world.machine.memory.read block.addr block.known)

def setCap (world : World) (cap : Word) : World :=
  world.mapStore fun store =>
    let window := { store.base.window with cap := min cap Window.maxCap }
    { store with base := { store.base with window } }

def run (world : World) : Command → Reply × World
  | .malformed => (.malformed, world)
  | .setCap cap => (.capSet, world.setCap cap)
  | .newTracker name on budget => world.create name on (newTracker · name · budget)
  | .newRegion name on minAlign boxed => world.create name on (newRegion · name · minAlign boxed)
  | .newRegionOf name on config => world.create name on (newRegionOf · name · config)
  | .newInterner name on boxed => world.create name on (newInterner · name · boxed)
  | .newInternerOf name on config => world.create name on (newInternerOf · name · config)
  | .newBox name on kind value => world.create name on (newBox · name · kind value)
  | .drop name => world.drop name
  | .deinit name => world.deinit name
  | .info name => (world.info name, world)
  | .readBlock label => (world.readBlock label, world)
  | .writeBlock label bytes => world.writeBlock label bytes
  | .region name command =>
    match world.find? name with
    | some item =>
      match item.object with
      | .region region _ => world.runRegion item region command
      | _ => (.malformed, world)
    | none => (.malformed, world)
  | .tracker name command =>
    match world.find? name with
    | some item =>
      match item.object with
      | .tracker tracker => world.runTracker item tracker command
      | _ => (.malformed, world)
    | none => (.malformed, world)
  | .box name command =>
    match world.find? name with
    | some item =>
      match item.object with
      | .box kind addr => world.runBox item kind addr command
      | _ => (.malformed, world)
    | none => (.malformed, world)
  | .interner name command =>
    match world.find? name with
    | some item =>
      match item.object with
      | .interner interner home => world.runInterner item interner home command
      | _ => (.malformed, world)
    | none => (.malformed, world)
  | .handle on command =>
    match world.origin? on with
    | none => (.malformed, world)
    | some origin => world.runHandle on origin command

def takeTrace (world : World) : List WindowCall × List Event × World :=
  let machine := world.machine
  let base := machine.store.base
  let window := { base.window with calls := [] }
  (base.window.calls.reverse, machine.trace.reverse,
    { world with
      machine := { machine with
        trace := []
        store := { machine.store with base := { base with window } } } })

def step (world : World) (step : Step) : Outcome × World :=
  let (reply, world) := world.run step.command
  let state := step.watched.bind fun name => (world.find? name).bind (·.object.state?)
  let (calls, events, world) := world.takeTrace
  ({ reply, state, calls, events }, world)

def runSteps (world : World) : List Step → List Outcome × World
  | [] => ([], world)
  | step :: steps =>
    let (outcome, world) := world.step step
    let (outcomes, world) := world.runSteps steps
    (outcome :: outcomes, world)

def finish (world : World) : Outcome :=
  let world := world.dropAll
  let (calls, events, world) := world.takeTrace
  { reply := .dropped world.machine.store.dropped, state := none, calls, events }

/-- Runs steps in a fresh world over a window of that size: the outcome of each step, and what the
end brings. -/
def runAll (cap : Word) (steps : List Step) : List Outcome × Outcome :=
  let (outcomes, world) := (ofCap cap).runSteps steps
  (outcomes, world.finish)

end World

end ArenaMemory
