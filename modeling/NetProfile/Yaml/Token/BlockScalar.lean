import NetProfile.Yaml.Character
import NetProfile.Yaml.Position

/-!
# Block scalars

Reads a scalar that is written on lines of its own, below an indicator that says
whether its lines are kept (`|`) or folded (`>`), how far they are indented, and
what happens to the breaks at its end.

## Main definitions

- `Yaml.BlockHeader` — what stands behind the indicator
- `Yaml.scanBlock` — reads the header and the lines
-/

namespace NetProfile

namespace Yaml

/-- What happens to the breaks at the end of a block scalar. -/
inductive Chomping where
  /-- All are dropped. -/
  | strip
  /-- The first is kept. -/
  | clip
  /-- All are kept. -/
  | keep
  deriving DecidableEq, Repr

/-- What stands behind the indicator of a block scalar. -/
structure BlockHeader where
  chomping : Chomping := .clip
  /-- The indentation relative to the block around, if it is given. -/
  increment : Option Nat := none
  deriving DecidableEq, Repr

/-- The value of a decimal digit. -/
def digitValue? (c : Char) : Option Nat :=
  if '0' ≤ c ∧ c ≤ '9' then some (c.toNat - '0'.toNat) else none

/-- The chomping that a sign asks for. -/
def chompingOf? (c : Char) : Option Chomping :=
  if c = '+' then some .keep else if c = '-' then some .strip else none

/-- Reads the sign and the digit behind the indicator, in either order. -/
def blockHeader (p : Position) (s : List Char) : Except SyntaxError (Piece BlockHeader) :=
  match s with
  | [] => .ok ⟨{}, s, p⟩
  | c :: rest =>
    match chompingOf? c, digitValue? c with
    | some chomping, _ =>
      match rest.head?.bind digitValue? with
      | some 0 => failAt p "found an indentation indicator equal to 0"
      | some n => .ok ⟨⟨chomping, some n⟩, rest.drop 1, p.right 2⟩
      | none => .ok ⟨⟨chomping, none⟩, rest, p.right 1⟩
    | none, some 0 => failAt p "found an indentation indicator equal to 0"
    | none, some n =>
      match rest.head?.bind chompingOf? with
      | some chomping => .ok ⟨⟨chomping, some n⟩, rest.drop 1, p.right 2⟩
      | none => .ok ⟨⟨.clip, some n⟩, rest, p.right 1⟩
    | none, none => .ok ⟨{}, s, p⟩

/-- Reads one line break, if there is one, and answers its text. -/
def takeBreak (p : Position) : List Char → Piece (Option Char)
  | '\r' :: '\n' :: rest => ⟨some '\n', rest, p.nextLine 2⟩
  | c :: rest =>
    if isBreak c then ⟨some (breakText c), rest, p.nextLine c.utf8Size⟩ else ⟨none, c :: rest, p⟩
  | [] => ⟨none, [], p⟩

/-- Spaces, a comment and the break at the end of a line that has nothing else. -/
def endOfLine (p : Position) (s : List Char) : Except SyntaxError (Piece Unit) :=
  let blanks := takeRun isSpace p s
  let comment :=
    if blanks.rest.head? = some '#' then takeRun (fun c => !isBreak c) blanks.position blanks.rest
    else blanks
  if endsLine comment.rest then
    let line := takeBreak comment.position comment.rest
    .ok ⟨(), line.rest, line.position⟩
  else failAt comment.position "did not find expected comment or line break"

/-- The breaks before the first line and its indentation. -/
structure BlockIndent where
  /-- The indentation of the lines, where none was given the deepest so far. -/
  indent : Nat
  /-- The breaks, last first. -/
  breaks : List Char
  deriving DecidableEq, Repr

/-- Reads the lines before the first that has a text. Without a given
indentation all spaces count as indentation and the deepest line decides. -/
def leadingLines (given : Option Nat) (deepest : Nat) (breaks : List Char) (p : Position) :
    List Char → Except SyntaxError (Piece BlockIndent)
  | [] => .ok ⟨⟨given.getD (max deepest p.column), breaks⟩, [], p⟩
  | '\r' :: '\n' :: rest =>
    leadingLines given (max deepest p.column) ('\n' :: breaks) (p.nextLine 2) rest
  | c :: rest =>
    let indenting := given.all (fun indent => decide (p.column < indent))
    if c = ' ' ∧ indenting then leadingLines given deepest breaks (p.right 1) rest
    else if c = '\t' ∧ indenting then
      failAt p "found a tab character where an indentation space is expected"
    else if isBreak c then
      leadingLines given (max deepest p.column) (breakText c :: breaks) (p.nextLine c.utf8Size) rest
    else .ok ⟨⟨given.getD (max deepest p.column), breaks⟩, c :: rest, p⟩

/-- How the lines of a block scalar are read. -/
structure BlockContext where
  /-- Whether single breaks between lines become spaces. -/
  folds : Bool
  indent : Nat
  deriving DecidableEq, Repr

/-- The lines read so far. -/
structure BlockLines where
  /-- The text, last character first. -/
  text : List Char := []
  /-- The break at the end of the last line. -/
  lineBreak : Option Char := none
  /-- The breaks of the blank lines behind it, last first. -/
  blankLines : List Char := []
  /-- Whether the last line starts with a space or tab. -/
  startsBlank : Bool := false
  deriving DecidableEq, Repr

/-- The text with what separates the next line from it; `blank` tells whether
that line starts with a space or tab. -/
def BlockLines.separated (l : BlockLines) (folds blank : Bool) : List Char :=
  if folds ∧ l.lineBreak = some '\n' ∧ !l.startsBlank ∧ !blank then
    if l.blankLines.isEmpty then ' ' :: l.text else l.blankLines ++ l.text
  else l.blankLines ++ (l.lineBreak.toList ++ l.text)

/-- Reads the lines. `inLine` tells whether the next character belongs to the
line that has begun; between lines only indentation and breaks are passed over. -/
def blockLinesFrom (ctx : BlockContext) (inLine : Bool) (l : BlockLines) (p : Position) :
    List Char → Except SyntaxError (Piece BlockLines)
  | [] => .ok ⟨l, [], p⟩
  | '\r' :: '\n' :: rest =>
    if inLine then
      blockLinesFrom ctx false { l with lineBreak := some '\n' } (p.nextLine 2) rest
    else
      blockLinesFrom ctx false { l with blankLines := '\n' :: l.blankLines } (p.nextLine 2) rest
  | c :: rest =>
    if isBreak c then
      if inLine then
        blockLinesFrom ctx false { l with lineBreak := some (breakText c) } (p.nextLine c.utf8Size) rest
      else
        blockLinesFrom ctx false { l with blankLines := breakText c :: l.blankLines }
          (p.nextLine c.utf8Size) rest
    else if inLine then
      blockLinesFrom ctx true { l with text := c :: l.text } (p.past c) rest
    else if p.column < ctx.indent ∧ c = ' ' then blockLinesFrom ctx false l (p.right 1) rest
    else if p.column < ctx.indent ∧ c = '\t' then
      failAt p "found a tab character where an indentation space is expected"
    else if p.column = ctx.indent then
      let line : BlockLines :=
        { text := c :: l.separated ctx.folds (isSpace c), startsBlank := isSpace c }
      blockLinesFrom ctx true line (p.past c) rest
    else .ok ⟨l, c :: rest, p⟩

/-- The text with the breaks at its end that are kept. -/
def BlockLines.chomped (l : BlockLines) (chomping : Chomping) : List Char :=
  match chomping with
  | .strip => l.text
  | .clip => l.lineBreak.toList ++ l.text
  | .keep => l.blankLines ++ (l.lineBreak.toList ++ l.text)

/-- Reads a block scalar behind its indicator, in a block indented by `outer`. -/
def scanBlock (folds : Bool) (outer : Int) (p : Position) (s : List Char) : Except SyntaxError (Piece (List Char)) := do
  let header ← blockHeader p s
  let start ← endOfLine header.position header.rest
  let given := header.value.increment.map (fun n => outer.toNat + n)
  let lead ← leadingLines given 0 [] start.position start.rest
  let least := (outer + 1).toNat
  let indent := given.getD (max (max lead.value.indent least) 1)
  let lines ← blockLinesFrom ⟨folds, indent⟩ false { blankLines := lead.value.breaks }
    lead.position lead.rest
  return ⟨(lines.value.chomped header.value.chomping).reverse, lines.rest, lines.position⟩

end Yaml

end NetProfile
