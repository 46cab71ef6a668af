import ArenaMemory.Text.Parts

namespace ArenaMemory

abbrev Name := List Char

def Name.up : Name := ['.', '.']

structure Path where
  /-- The path starts at the root and not at the working directory. -/
  absolute : Bool
  steps : List Name

namespace Path

def ofText (text : List Char) : Path where
  absolute := text.head? = some '/'
  steps := parts '/' text

def stays (step : Name) : Bool := step = [] || step = ['.']

def names (path : Path) : List Name := path.steps.filter (! stays ·)

/-- Follows names from a directory, given innermost name first; `none` when they lead out of the
working directory. -/
def follow : List Name → List Name → Option (List Name)
  | dir, [] => some dir.reverse
  | dir, name :: names =>
    if name = Name.up then
      match dir with
      | [] => none
      | _ :: outer => follow outer names
    else follow (name :: dir) names

/-- The path below the working directory without any step up, if it stays there. -/
def resolve? (path : Path) : Option (List Name) :=
  if path.absolute then none else follow [] path.names

def text (names : List Name) : List Char := ['/'].intercalate names

end Path

end ArenaMemory
