import NetProfile.Text.Hex
import NetProfile.Yaml.Position
import NetProfile.Yaml.Token.Folding

/-!
# Quoted scalars

Reads a scalar between single or double quotes. Between single quotes a quote is
written twice; between double quotes a backslash starts an escape.

## Main definitions

- `Yaml.escapeMeaning?` — what the character behind a backslash says
- `Yaml.scanQuoted` — reads the text behind an opening quote

## Design notes

Each step reads one character, or the two characters of one line break, so the
reading is by recursion on the text. What has been read of an escape is part of
the state.
-/

namespace NetProfile

namespace Yaml

/-- What the character behind a backslash says. -/
inductive EscapeMeaning where
  /-- The escape stands for a character. -/
  | char (c : Char)
  /-- The escape goes on with this many hexadecimal digits. -/
  | digits (count : Nat)
  deriving DecidableEq, Repr

/-- The escapes between double quotes. -/
def escapeMeaning? (c : Char) : Option EscapeMeaning :=
  match c with
  | '0' => some (.char (Char.ofNat 0x00))
  | 'a' => some (.char (Char.ofNat 0x07))
  | 'b' => some (.char (Char.ofNat 0x08))
  | 't' => some (.char '\t')
  | '\t' => some (.char '\t')
  | 'n' => some (.char '\n')
  | 'v' => some (.char (Char.ofNat 0x0B))
  | 'f' => some (.char (Char.ofNat 0x0C))
  | 'r' => some (.char '\r')
  | 'e' => some (.char (Char.ofNat 0x1B))
  | ' ' => some (.char ' ')
  | '"' => some (.char '"')
  | '/' => some (.char '/')
  | '\\' => some (.char '\\')
  | 'N' => some (.char (Char.ofNat 0x85))
  | '_' => some (.char (Char.ofNat 0xA0))
  | 'L' => some (.char (Char.ofNat 0x2028))
  | 'P' => some (.char (Char.ofNat 0x2029))
  | 'x' => some (.digits 2)
  | 'u' => some (.digits 4)
  | 'U' => some (.digits 8)
  | _ => none

/-- The character with the given number, if there is one. -/
def charOfCode? (n : Nat) : Option Char :=
  if n.isValidChar then some (Char.ofNat n) else none

/-- What the next character belongs to. -/
inductive QuotedMode where
  | text
  /-- Between single quotes, behind a quote. -/
  | quote
  /-- Behind a backslash. -/
  | escape
  /-- Inside an escape with `left + 1` more digits. -/
  | digits (left : Nat) (value : Nat)
  deriving DecidableEq, Repr

/-- Reads the text of a quoted scalar. `double` tells the kind of quotes and
`acc` holds what has been read, last character first. -/
def quotedFrom (double : Bool) (mode : QuotedMode) (acc : List Char) (gap : Gap)
    (p : Position) : List Char → Except SyntaxError (Piece (List Char))
  | [] =>
    match mode with
    | .quote => .ok ⟨acc.reverse, [], p⟩
    | _ => failAt p "found unexpected end of stream"
  | '\r' :: '\n' :: rest =>
    match mode with
    | .text => quotedFrom double .text acc (gap.addBreak '\n') (p.nextLine 2) rest
    | .quote => .ok ⟨acc.reverse, '\r' :: '\n' :: rest, p⟩
    | .escape => quotedFrom double .text acc .escaped (p.nextLine 2) rest
    | .digits .. => failAt p "did not find expected hexadecimal number"
  | c :: rest =>
    match mode with
    | .quote =>
      if c = '\'' then quotedFrom double .text ('\'' :: acc) {} (p.right 1) rest
      else .ok ⟨acc.reverse, c :: rest, p⟩
    | .escape =>
      if isBreak c then quotedFrom double .text acc .escaped (p.nextLine c.utf8Size) rest
      else
        match escapeMeaning? c with
        | some (.char x) => quotedFrom double .text (x :: acc) {} (p.right 1) rest
        | some (.digits n) => quotedFrom double (.digits (n - 1) 0) acc {} (p.right 1) rest
        | none => failAt p "found unknown escape character"
    | .digits left value =>
      match Text.hexDigitValue? c with
      | none => failAt p "did not find expected hexadecimal number"
      | some d =>
        let value := value * 16 + d
        match left with
        | n + 1 => quotedFrom double (.digits n value) acc {} (p.right 1) rest
        | 0 =>
          match charOfCode? value with
          | some x => quotedFrom double .text (x :: acc) {} (p.right 1) rest
          | none => failAt p "found invalid Unicode character escape code"
    | .text =>
      if isBreak c then quotedFrom double .text acc (gap.addBreak (breakText c)) (p.nextLine c.utf8Size) rest
      else if isSpace c then quotedFrom double .text acc (gap.addSpace c) (p.right 1) rest
      else if p.column = 0 ∧ isDocumentMarker (c :: rest) then
        failAt p "found unexpected document indicator"
      else
        let acc := gap.folded ++ acc
        if double then
          if c = '"' then .ok ⟨acc.reverse, rest, p.right 1⟩
          else if c = '\\' then quotedFrom double .escape acc {} (p.right 1) rest
          else quotedFrom double .text (c :: acc) {} (p.past c) rest
        else if c = '\'' then quotedFrom double .quote acc {} (p.right 1) rest
        else quotedFrom double .text (c :: acc) {} (p.past c) rest

/-- Reads the text behind an opening quote and the closing quote. -/
def scanQuoted (double : Bool) (p : Position) (s : List Char) : Except SyntaxError (Piece (List Char)) :=
  quotedFrom double .text [] {} p s

end Yaml

end NetProfile
