namespace ArenaMemory

namespace Regex

inductive Flag where
  | caseless
  | multiLine
  | dotAll
  /-- Repetitions take as little as they can. -/
  | reluctant
  | unicode
  /-- A line may end in a carriage return. -/
  | crlf
  /-- White space and comments mean nothing. -/
  | spaced
deriving DecidableEq

def Flag.ofChar? : Char → Option Flag
  | 'i' => some .caseless
  | 'm' => some .multiLine
  | 's' => some .dotAll
  | 'U' => some .reluctant
  | 'u' => some .unicode
  | 'R' => some .crlf
  | 'x' => some .spaced
  | _ => none

structure Switches where
  on : List Flag := []
  off : List Flag := []

namespace Switches

def mentions (switches : Switches) (flag : Flag) : Bool :=
  flag ∈ switches.on || flag ∈ switches.off

def apply (switches : Switches) (flag : Flag) (before : Bool) : Bool :=
  flag ∈ switches.on || (before && flag ∉ switches.off)

end Switches

/-- What matches one character or one place between two of them. -/
inductive Atom where
  | char (c : Char)
  | code (c : Char)
  /-- Digits, white space or word characters, or all but them. -/
  | category (negated : Bool)
  | dot
  | edge
  /-- An end of a word, or any place that is none. -/
  | wordEdge

def Atom.char? : Atom → Option Char
  | .char c | .code c => some c
  | _ => none

inductive Members where
  | nothing
  | atom (atom : Atom)
  | range (first last : Char)
  | named (negated : Bool)
  | set (negated : Bool) (members : Members)
  | union (all : List Members)
  /-- What two sets have in common, or what only one of them has. -/
  | combination (left right : Members)

mutual

def Members.depth : Members → Nat
  | .nothing | .atom _ | .range _ _ | .named _ => 0
  | .set _ members => members.depth + 1
  | .union all => Members.maxDepth all + 1
  | .combination left right => max left.depth right.depth + 1

def Members.maxDepth : List Members → Nat
  | [] => 0
  | members :: others => max members.depth (Members.maxDepth others)

end

/-- One after another, which is no union as long as there is only one. -/
def Members.ofList : List Members → Members
  | [] => .nothing
  | [members] => members
  | all => .union all

end Regex

inductive Regex where
  | nothing
  | one (atom : Regex.Atom)
  | oneOf (negated : Bool) (members : Regex.Members)
  /-- Switches for what follows in the same group. -/
  | setting (switches : Regex.Switches)
  | repetition (body : Regex)
  | group (name : Option (List Char)) (switches : Regex.Switches) (body : Regex)
  | sequence (parts : List Regex)
  | choice (branches : List Regex)

namespace Regex

def ofParts : List Regex → Regex
  | [] => .nothing
  | [part] => part
  | parts => .sequence parts

def ofBranches : List Regex → Regex
  | [branch] => branch
  | branches => .choice branches

mutual

def depth : Regex → Nat
  | .nothing | .one _ | .setting _ => 0
  | .oneOf negated members => (Members.set negated members).depth
  | .repetition body | .group _ _ body => body.depth + 1
  | .sequence parts => maxDepth parts + 1
  | .choice branches => maxDepth branches + 1

def maxDepth : List Regex → Nat
  | [] => 0
  | regex :: others => max regex.depth (maxDepth others)

end

mutual

def names : Regex → List (List Char)
  | .nothing | .one _ | .oneOf _ _ | .setting _ => []
  | .repetition body => body.names
  | .group name _ body => name.toList ++ body.names
  | .sequence parts => allNames parts
  | .choice branches => allNames branches

def allNames : List Regex → List (List Char)
  | [] => []
  | regex :: others => regex.names ++ allNames others

end

/-- Switches match nothing and so can not be repeated. -/
def isRepeatable : Regex → Bool
  | .nothing | .setting _ => false
  | _ => true

end Regex

end ArenaMemory
