import ArenaMemory.Trace.Directive

namespace ArenaMemory

structure Filter where
  directives : List Directive

namespace Filter

def upTo (target : String) (level : Level) : Filter :=
  ⟨[{ target := target.toList, threshold := some level }]⟩

/-- Directives between commas. A text without any lets errors through; one that is none of them
makes the whole text none. -/
def ofText? (text : List Char) : Option Filter := do
  let directives ← ((parts ',' text).filter (! ·.isEmpty)).mapM Directive.ofText?
  some ⟨if directives.isEmpty then [{ threshold := some .error }] else directives⟩

/-- The directive that decides about an event: the most special one that covers it, and of equals
the last. -/
def decisive? (filter : Filter) (event : Event) : Option Directive :=
  (filter.directives.filter (·.covers event)).foldl (fun best directive =>
    match best with
    | none => some directive
    | some other => if other.yieldsTo directive then some directive else best) none

def admits (filter : Filter) (event : Event) : Bool :=
  (filter.decisive? event).any fun directive => directive.threshold.admits event.level

end Filter

end ArenaMemory
