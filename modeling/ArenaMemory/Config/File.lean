import ArenaMemory.Config.Text
import ArenaMemory.Text.Path

namespace ArenaMemory

inductive FileError where
  | notFound
  | isDirectory
  | notDirectory
  | nameTooLong
  /-- A path holds a zero character, which no name does. -/
  | zeroInName
  | invalidText
deriving DecidableEq

structure Directory where
  files : List (List Name × List UInt8) := []

inductive Destination where
  | directory
  /-- A name in such a directory, perhaps with a slash behind it. -/
  | entry (names : List Name) (slash : Bool)

namespace Directory

def maxNameSize : Nat := 255

def maxPathSize : Nat := 4095

/-- How many bytes lead from the root to the working directory, with the slash behind it. -/
def homeSize : Nat := 16

def sizeOf (name : List Char) : Nat := (String.ofList name).utf8ByteSize

def find? (dir : Directory) (names : List Name) : Except FileError (Option (List UInt8)) :=
  if maxNameSize < sizeOf (names.getLastD []) then .error .nameTooLong
  else .ok (dir.files.lookup names)

/-- Follows steps from the directory that `reached` leads to. The only directories are the working
directory and those above it, so that no name leads on. -/
def follow (dir : Directory) (reached : List Name) : List Name → Except FileError Destination
  | [] => .ok .directory
  | step :: rest =>
    if Path.stays step then dir.follow reached rest
    else if step = Name.up then dir.follow (reached ++ [step]) rest
    else
      let names := reached ++ [step]
      if rest.all (·.isEmpty) then .ok (.entry names (!rest.isEmpty))
      else
        match dir.find? names with
        | .error e => .error e
        | .ok found => .error (if found.isSome then .notDirectory else .notFound)

def locate (dir : Directory) (path : Path) : Except FileError Destination :=
  if path.steps.any (·.contains (Char.ofNat 0)) then .error .zeroInName
  else if maxPathSize < (if path.absolute then 0 else homeSize) + sizeOf (Path.text path.steps) then
    .error .nameTooLong
  else dir.follow (if path.absolute then [['/']] else []) path.steps

def read (dir : Directory) (path : Path) : Except FileError (List UInt8) := do
  match ← dir.locate path with
  | .directory => .error .isDirectory
  | .entry names slash =>
    match ← dir.find? names with
    | none => .error .notFound
    | some bytes => if slash then .error .notDirectory else .ok bytes

def write (dir : Directory) (path : Path) (bytes : List UInt8) : Except FileError Directory := do
  match ← dir.locate path with
  | .directory | .entry _ true => .error .isDirectory
  | .entry names false =>
    let _ ← dir.find? names
    .ok { dir with files := (names, bytes) :: dir.files }

def readText (dir : Directory) (path : Path) : Except FileError (List Char) := do
  let bytes ← dir.read path
  match textOfBytes? bytes with
  | some text => .ok text
  | none => .error .invalidText

end Directory

inductive ConfigFileError where
  | file (error : FileError)
  | content (error : ConfigError)
deriving DecidableEq

namespace MemoryConfig

def load (dir : Directory) (path : Path) : Except ConfigFileError MemoryConfig := do
  let text ← (dir.readText path).mapError .file
  (parse text).mapError .content

def save (config : MemoryConfig) (dir : Directory) (path : Path) :
    Except ConfigFileError Directory := do
  let text ← config.write.mapError .content
  (dir.write path (String.ofList text).toUTF8.toList).mapError .file

end MemoryConfig

end ArenaMemory
