/-!
# Characters of documents

The character classes that the reader tells apart.

## Main definitions

- `Yaml.isAllowed` — characters that a document may contain at all
- `Yaml.isBreak`, `Yaml.isSpace` — line breaks, spaces and tabs
- `Yaml.endsWord` — what may stand behind an indicator
-/

namespace NetProfile

namespace Yaml

/-- The characters that a document may contain: no control characters but tab,
newline, carriage return and next line, and no noncharacters of the basic plane. -/
def isAllowed (c : Char) : Bool :=
  let n := c.toNat
  n == 0x09 || n == 0x0A || n == 0x0D || (0x20 ≤ n && n ≤ 0x7E) || n == 0x85
    || (0xA0 ≤ n && n ≤ 0xD7FF) || (0xE000 ≤ n && n ≤ 0xFFFD) || (0x10000 ≤ n && n ≤ 0x10FFFF)

/-- The byte order mark. -/
def byteOrderMark : Char := Char.ofNat 0xFEFF

/-- Line breaks. -/
def isBreak (c : Char) : Bool :=
  let n := c.toNat
  n == 0x0A || n == 0x0D || n == 0x85 || n == 0x2028 || n == 0x2029

/-- The text that a line break stands for inside a scalar: line and paragraph
separators stay, all others become a newline. -/
def breakText (c : Char) : Char :=
  if c.toNat = 0x2028 ∨ c.toNat = 0x2029 then c else '\n'

/-- Spaces and tabs. -/
def isSpace (c : Char) : Bool := c == ' ' || c == '\t'

/-- Characters of names: those of anchors, tag handles and directives. -/
def isNameChar (c : Char) : Bool :=
  ('0' ≤ c && c ≤ '9') || ('A' ≤ c && c ≤ 'Z') || ('a' ≤ c && c ≤ 'z') || c == '_' || c == '-'

/-- Whether a text starts with a space, a tab, a line break or nothing at all. -/
def endsWord : List Char → Bool
  | [] => true
  | c :: _ => isSpace c || isBreak c

/-- Whether a text starts with a line break or nothing at all. -/
def endsLine : List Char → Bool
  | [] => true
  | c :: _ => isBreak c

/-- Whether a text starts with the marker of a document's start. -/
def startsDocument : List Char → Bool
  | '-' :: '-' :: '-' :: rest => endsWord rest
  | _ => false

/-- Whether a text starts with the marker of a document's end. -/
def endsDocument : List Char → Bool
  | '.' :: '.' :: '.' :: rest => endsWord rest
  | _ => false

/-- Whether a text starts with either marker. -/
def isDocumentMarker (s : List Char) : Bool := startsDocument s || endsDocument s

end Yaml

end NetProfile
