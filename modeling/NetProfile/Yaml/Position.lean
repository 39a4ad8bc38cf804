/-!
# Positions in a document

Where in a text the reader stands, and the errors it reports there.
-/

namespace NetProfile

namespace Yaml

/-- A place in a text. Lines, and characters in a line, are counted from zero. -/
structure Position where
  /-- The number of bytes before, in UTF-8. -/
  index : Nat := 0
  line : Nat := 0
  column : Nat := 0
  deriving DecidableEq, Repr, Inhabited

namespace Position

/-- The place behind a character that is no line break. -/
def past (p : Position) (c : Char) : Position :=
  { p with index := p.index + c.utf8Size, column := p.column + 1 }

/-- The place `n` ASCII characters further on the same line. -/
def right (p : Position) (n : Nat) : Position :=
  { p with index := p.index + n, column := p.column + n }

/-- The start of the next line, behind a line break of `n` bytes. -/
def nextLine (p : Position) (n : Nat) : Position := ⟨p.index + n, p.line + 1, 0⟩

/-- The place in words, counted from one. -/
def describe (p : Position) : String :=
  "line " ++ toString (p.line + 1) ++ " column " ++ toString (p.column + 1)

end Position

/-- What is wrong with the form of a document. -/
structure SyntaxError where
  problem : String
  /-- Where it was found, if that is known. -/
  position : Option Position := none
  deriving DecidableEq, Repr

namespace SyntaxError

/-- The error in words. -/
def message (e : SyntaxError) : String :=
  match e.position with
  | some p => e.problem ++ " at " ++ p.describe
  | none => e.problem

end SyntaxError

/-- A piece that was read, the text behind it and the place where that begins. -/
structure Piece (α : Type) where
  value : α
  rest : List Char
  position : Position

/-- A failure at a place. -/
def failAt {α : Type} (p : Position) (problem : String) : Except SyntaxError α :=
  .error ⟨problem, some p⟩

/-- The longest beginning of the text whose characters satisfy `accept`, which
has to refuse line breaks. -/
def takeRun (accept : Char → Bool) (p : Position) (s : List Char) : Piece (List Char) :=
  let run := s.takeWhile accept
  ⟨run, s.dropWhile accept, run.foldl Position.past p⟩

end Yaml

end NetProfile
