import ArenaMemory.Regex.Basic

namespace ArenaMemory.Regex

structure Modes where
  caseless : Bool := false
  unicode : Bool := true

namespace Modes

def after (modes : Modes) (switches : Switches) : Modes where
  caseless := switches.apply .caseless modes.caseless
  unicode := switches.apply .unicode modes.unicode

def needsCases (modes : Modes) : Bool := modes.unicode && modes.caseless

end Modes

def isAscii (c : Char) : Bool := c.toNat < 0x80

def Atom.isSupported (modes : Modes) : Atom → Bool
  | .char _ => !modes.needsCases
  | .code c => !modes.needsCases && (modes.unicode || isAscii c)
  | .category negated => !modes.unicode && !negated
  | .dot => modes.unicode
  | .edge => true
  | .wordEdge => !modes.unicode

mutual

/-- Among bytes a set holds ASCII characters only, which no set does that is negated. -/
def Members.isSupported (modes : Modes) : Members → Bool
  | .nothing => true
  | .atom a => a.isSupported modes && (modes.unicode || a.char?.all isAscii)
  | .range first last => !modes.needsCases && (modes.unicode || (isAscii first && isAscii last))
  | .named negated => !modes.needsCases && (modes.unicode || !negated)
  | .set negated members => (modes.unicode || !negated) && members.isSupported modes
  | .union all => Members.allSupported modes all
  | .combination left right => left.isSupported modes && right.isSupported modes

def Members.allSupported (modes : Modes) : List Members → Bool
  | [] => true
  | members :: others => members.isSupported modes && Members.allSupported modes others

end

mutual

/-- The modes behind an expression that is supported. Switches count up to the end of their group.
-/
def modesBehind? (modes : Modes) : Regex → Option Modes
  | .nothing => some modes
  | .one a => if a.isSupported modes then some modes else none
  | .oneOf negated members =>
    if (Members.set negated members).isSupported modes then some modes else none
  | .setting switches => some (modes.after switches)
  | .repetition body => body.modesBehind? modes
  | .group _ switches body => (body.modesBehind? (modes.after switches)).map fun _ => modes
  | .sequence parts => modesBehindAll? modes parts
  | .choice branches => modesBehindAll? modes branches

def modesBehindAll? (modes : Modes) : List Regex → Option Modes
  | [] => some modes
  | regex :: others =>
    match regex.modesBehind? modes with
    | none => none
    | some modes => modesBehindAll? modes others

end

def maxSupportedDepth : Nat := 250

def isSupported (regex : Regex) : Bool :=
  regex.depth ≤ maxSupportedDepth && regex.names.eraseDups.length = regex.names.length &&
    (regex.modesBehind? {}).isSome

end ArenaMemory.Regex
