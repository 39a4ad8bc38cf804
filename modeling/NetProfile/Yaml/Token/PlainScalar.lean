import NetProfile.Yaml.Position
import NetProfile.Yaml.Token.Folding

/-!
# Plain scalars

Reads a scalar without quotes. It ends before a colon that a blank follows,
before a comment, before a document marker, in a block at a line that is not
indented enough, and in a flow collection before its punctuation.

## Main definitions

- `Yaml.PlainScalar` — the text, and whether the scalar ended behind a break
- `Yaml.scanPlain` — reads a plain scalar
-/

namespace NetProfile

namespace Yaml

/-- A plain scalar that was read. -/
structure PlainScalar where
  text : List Char
  /-- Whether line breaks were read behind the text. -/
  endsOnNewLine : Bool
  deriving DecidableEq, Repr

/-- The punctuation of flow collections. -/
def isFlowIndicator (c : Char) : Bool :=
  c == ',' || c == '[' || c == ']' || c == Char.ofNat 0x7B || c == Char.ofNat 0x7D

/-- Whether the text starts with a colon that a plain scalar in a flow
collection may not contain. -/
def isAmbiguousColon : List Char → Bool
  | ':' :: c :: _ => isFlowIndicator c || c == '?'
  | _ => false

/-- Whether the text starts with a colon that a blank follows. -/
def isValueMark : List Char → Bool
  | ':' :: rest => endsWord rest
  | _ => false

/-- The surroundings of a plain scalar. -/
structure PlainContext where
  /-- Whether it stands in a flow collection. -/
  inFlow : Bool
  /-- The least column of its further lines. -/
  indent : Nat
  deriving DecidableEq, Repr

/-- Whether the scalar ends where `s` begins, at place `p` behind the gap. -/
def PlainContext.endsAt (ctx : PlainContext) (gap : Gap) (p : Position) (s : List Char) : Bool :=
  (!gap.isEmpty
    && ((!ctx.inFlow && decide (p.column < ctx.indent))
        || (p.column == 0 && isDocumentMarker s)
        || s.head? == some '#'))
  || isValueMark s
  || (ctx.inFlow && (s.head?.any isFlowIndicator))

/-- Reads a plain scalar; `acc` holds what has been read, last character first. -/
def plainFrom (ctx : PlainContext) (acc : List Char) (gap : Gap) (p : Position) :
    List Char → Except SyntaxError (Piece PlainScalar)
  | [] => .ok ⟨⟨acc.reverse, gap.broken⟩, [], p⟩
  | '\r' :: '\n' :: rest => plainFrom ctx acc (gap.addBreak '\n') (p.nextLine 2) rest
  | c :: rest =>
    if isBreak c then plainFrom ctx acc (gap.addBreak (breakText c)) (p.nextLine c.utf8Size) rest
    else if isSpace c then
      if gap.broken ∧ p.column < ctx.indent ∧ c = '\t' then
        failAt p "found a tab character that violates indentation"
      else plainFrom ctx acc (gap.addSpace c) (p.right 1) rest
    else if ctx.inFlow && isAmbiguousColon (c :: rest) then
      failAt p "found unexpected ':'"
    else if ctx.endsAt gap p (c :: rest) then .ok ⟨⟨acc.reverse, gap.broken⟩, c :: rest, p⟩
    else plainFrom ctx (c :: (gap.folded ++ acc)) {} (p.past c) rest

/-- Reads a plain scalar whose first character has been found fit to start one. -/
def scanPlain (ctx : PlainContext) (p : Position) (s : List Char) : Except SyntaxError (Piece PlainScalar) :=
  plainFrom ctx [] {} p s

end Yaml

end NetProfile
