import ArenaMemory.Regex.Expression
import ArenaMemory.Regex.Support

namespace ArenaMemory

namespace Pattern

/-- A number with a plus sign in front, which would be no regular expression. -/
def isPlusNumber (text : List Char) : Bool :=
  match text with
  | '+' :: rest =>
    let word := rest.map Char.toLower
    let mantissa := rest.takeWhile (fun c => c ≠ 'e' && c ≠ 'E')
    let digits := mantissa.filter (· ≠ '.')
    let power := (rest.drop mantissa.length).drop 1
    let powerDigits := if power.head? = some '+' || power.head? = some '-' then power.drop 1 else power
    word = "inf".toList || word = "infinity".toList || word = "nan".toList ||
      (!digits.isEmpty && digits.all Char.isDigit && mantissa.length ≤ digits.length + 1 &&
        (mantissa.length = rest.length || (!powerDigits.isEmpty && powerDigits.all Char.isDigit)))
  | _ => false

def isWellFormed (text : List Char) : Bool :=
  isPlusNumber text || (Regex.ofText? text).any Regex.isSupported

end Pattern

end ArenaMemory
