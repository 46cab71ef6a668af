import ArenaMemory.Binary64
import ArenaMemory.Region.Chunk

namespace ArenaMemory

structure RegionConfig where
  minAlign : Word := 1
  allocationLimit : Option Word := none
deriving DecidableEq

structure InternerConfig where
  /-- The share of slots that may be taken before the map grows. -/
  loadFactor : Binary64 := ⟨0x3FE8000000000000⟩
  initialCapacity : Word := 64
  arenaLimit : Option Word := none
deriving DecidableEq

structure MemoryConfig where
  region : RegionConfig := {}
  interner : InternerConfig := {}
deriving DecidableEq

structure InvalidSetting where
  field : String
  reason : String
deriving DecidableEq

def InvalidSetting.message (invalid : InvalidSetting) : String :=
  "invalid value for \x60" ++ invalid.field ++ "\x60: " ++ invalid.reason

def RegionConfig.validate (config : RegionConfig) : Except InvalidSetting Unit :=
  match Alignment.ofWord? config.minAlign with
  | none => .error ⟨"region.min_align", s!"{config.minAlign} is not a power of two"⟩
  | some align =>
    if chunkAlign.bytes < align.bytes then
      .error ⟨"region.min_align",
        s!"{config.minAlign} exceeds the chunk alignment of {chunkAlign.bytes}"⟩
    else .ok ()

def InternerConfig.validate (config : InternerConfig) : Except InvalidSetting Unit :=
  if !config.loadFactor.inUnitInterval then
    .error ⟨"interner.load_factor", s!"{config.loadFactor.display} is outside (0, 1)"⟩
  else if 0xFFFFFFFF < config.initialCapacity then
    .error ⟨"interner.initial_capacity", s!"{config.initialCapacity} exceeds the symbol space"⟩
  else .ok ()

namespace MemoryConfig

def validate (config : MemoryConfig) : Except InvalidSetting Unit := do
  config.region.validate
  config.interner.validate

/-- Equality of settings; the load factors are compared as numbers. -/
def same (a b : MemoryConfig) : Bool :=
  a.region = b.region && a.interner.loadFactor.same b.interner.loadFactor &&
    a.interner.initialCapacity = b.interner.initialCapacity &&
    a.interner.arenaLimit = b.interner.arenaLimit

end MemoryConfig

end ArenaMemory
