import ArenaMemory.Config.Basic
import ArenaMemory.Toml.Document

namespace ArenaMemory

inductive ConfigError where
  /-- It is no document, or a setting is of the wrong type. -/
  | parse
  | serialize
  | invalid (setting : InvalidSetting)
deriving DecidableEq

def Binary64.tomlText (x : Binary64) : List Char :=
  if x.isNaN then ['n', 'a', 'n']
  else if x.isInfinite then x.signText ++ ['i', 'n', 'f']
  else
    let digits := x.shortest.positional
    x.signText ++ digits ++ if digits.contains '.' then [] else ['.', '0']

namespace Toml.Value

def size? : Value → Option Word
  | .integer n => if 0 ≤ n then Word.ofNat? n.toNat else none
  | _ => none

def number? : Value → Option Binary64
  | .float x => some x
  | .integer n => some (.ofInt n)
  | _ => none

/-- The values of some keys. An array gives them in order, and may be too short or too long. -/
def fields? (keys : List String) : Value → Option (List (Option Value))
  | .table _ entries => some (keys.map (entries.lookup ·))
  | .array items => some ((List.range keys.length).map (items[·]?))
  | .tables items => some ((List.range keys.length).map fun i => (items[i]?).map (.table .header))
  | .moment _ => some (keys.map fun _ => none)
  | _ => none

end Toml.Value

def optionalField {α : Type} (read : Toml.Value → Option α) (default : α) :
    Option Toml.Value → Option α
  | none => some default
  | some value => read value

namespace RegionConfig

def keys : List String := ["min_align", "allocation_limit"]

def ofToml? (value : Toml.Value) : Option RegionConfig :=
  match value.fields? keys with
  | some [minAlign, allocationLimit] => do
    let minAlign ← optionalField Toml.Value.size? ({} : RegionConfig).minAlign minAlign
    let allocationLimit ← optionalField (fun v => v.size?.map some) none allocationLimit
    some { minAlign, allocationLimit }
  | _ => none

end RegionConfig

namespace InternerConfig

def keys : List String := ["load_factor", "initial_capacity", "arena_limit"]

def ofToml? (value : Toml.Value) : Option InternerConfig :=
  match value.fields? keys with
  | some [loadFactor, initialCapacity, arenaLimit] => do
    let loadFactor ← optionalField Toml.Value.number? ({} : InternerConfig).loadFactor loadFactor
    let initialCapacity ←
      optionalField Toml.Value.size? ({} : InternerConfig).initialCapacity initialCapacity
    let arenaLimit ← optionalField (fun v => v.size?.map some) none arenaLimit
    some { loadFactor, initialCapacity, arenaLimit }
  | _ => none

end InternerConfig

namespace MemoryConfig

def ofToml? (entries : Toml.Entries) : Option MemoryConfig := do
  let region ← optionalField RegionConfig.ofToml? {} (entries.lookup "region")
  let interner ← optionalField InternerConfig.ofToml? {} (entries.lookup "interner")
  some { region, interner }

def parse (input : List Char) : Except ConfigError MemoryConfig :=
  match (Toml.parse? input).bind ofToml? with
  | none => .error .parse
  | some config =>
    match config.validate with
    | .ok () => .ok config
    | .error setting => .error (.invalid setting)

def maxWritten : Word := 0x7FFFFFFFFFFFFFFF

def sizes (config : MemoryConfig) : List Word :=
  config.region.minAlign :: config.region.allocationLimit.toList ++
    config.interner.initialCapacity :: config.interner.arenaLimit.toList

def line (key : String) (value : List Char) : List Char :=
  key.toList ++ ' ' :: '=' :: ' ' :: value ++ ['\n']

def sizeText (size : Word) : List Char := Nat.toDigits 10 size.toNat

def optionalLine (key : String) : Option Word → List Char
  | none => []
  | some size => line key (sizeText size)

def text (config : MemoryConfig) : List Char :=
  "[region]\n".toList ++ line "min_align" (sizeText config.region.minAlign)
    ++ optionalLine "allocation_limit" config.region.allocationLimit
    ++ '\n' :: "[interner]\n".toList ++ line "load_factor" config.interner.loadFactor.tomlText
    ++ line "initial_capacity" (sizeText config.interner.initialCapacity)
    ++ optionalLine "arena_limit" config.interner.arenaLimit

def write (config : MemoryConfig) : Except ConfigError (List Char) :=
  if config.sizes.all (· ≤ maxWritten) then .ok config.text else .error .serialize

end MemoryConfig

end ArenaMemory
