import NetProfile.Yaml.Character

/-!
# Folding lines

Inside a flow scalar a run of spaces, tabs and line breaks is kept back until it
is known what follows. A run without breaks is kept as it is. A single newline
becomes a space, and of several breaks the first is dropped.
-/

namespace NetProfile

namespace Yaml

/-- Spaces, tabs and breaks that have been read but not yet added to the scalar. -/
structure Gap where
  /-- The spaces and tabs before the first break, last first. -/
  spaces : List Char := []
  /-- Whether there was a break. -/
  broken : Bool := false
  /-- The first break, if it counts. -/
  first : Option Char := none
  /-- The further breaks, last first. -/
  more : List Char := []
  deriving DecidableEq, Repr, Inhabited

namespace Gap

/-- Whether nothing has been kept back. -/
def isEmpty (g : Gap) : Bool := g.spaces.isEmpty && !g.broken

/-- The gap with one more space or tab, which counts only before the first break. -/
def addSpace (g : Gap) (c : Char) : Gap :=
  if g.broken then g else { g with spaces := c :: g.spaces }

/-- The gap with one more break, given by its text. -/
def addBreak (g : Gap) (c : Char) : Gap :=
  if g.broken then { g with more := c :: g.more }
  else { spaces := [], broken := true, first := some c, more := [] }

/-- The gap behind an escaped break, which does not count. -/
def escaped : Gap := { broken := true }

/-- What the gap adds to the scalar, last character first. -/
def folded (g : Gap) : List Char :=
  if g.broken then
    match g.first with
    | none => g.more
    | some c =>
      if c = '\n' then (if g.more.isEmpty then [' '] else g.more)
      else g.more ++ [c]
  else g.spaces

end Gap

end Yaml

end NetProfile
