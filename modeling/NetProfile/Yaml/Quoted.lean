import NetProfile.Text.Blank
import NetProfile.Text.Hex

/-!
# Written scalars

A scalar is written either plainly, as its own text, or between double quotes
with escapes.

## Main definitions

- `Yaml.isPlainSafe` — which texts are written plainly
- `Yaml.quote` — a text between double quotes
- `Yaml.plainForm` — plain where that is safe, quoted otherwise

## Design notes

`isPlainSafe` looks at the shape of a text only: it keeps a plain text from
running into the punctuation around it. It does not ask what the text would
resolve to when it is read, so `true` and `12` are written plainly.
-/

namespace NetProfile

namespace Yaml

/-- Characters that mean something else at the start of a plain scalar. -/
def leadingIndicators : List Char := ",[]\x7b\x7d#&*!|>'\"%@`".toList

/-- Characters that mean something else at the start of a plain scalar when a
space or nothing follows. -/
def looseIndicators : List Char := ['-', '?', ':']

/-- Whether `b` follows directly on `a` somewhere. -/
def hasPair (a b : Char) : List Char → Bool
  | c :: d :: rest => (c == a && d == b) || hasPair a b (d :: rest)
  | _ => false

/-- Whether the text may start as a plain scalar. -/
def startsSafely : List Char → Bool
  | [] => false
  | c :: rest =>
    c != ' ' && !leadingIndicators.contains c
      && !(looseIndicators.contains c && (rest.isEmpty || rest.head? == some ' '))

/-- Whether the text may end as a plain scalar. -/
def endsSafely (s : List Char) : Bool := s.getLast? != some ' ' && s.getLast? != some ':'

/-- Whether a text can stand in a document without quotes. -/
def isPlainSafe (s : List Char) : Bool :=
  startsSafely s && endsSafely s && !s.any Text.isControl && !hasPair ':' ' ' s
    && !hasPair ' ' '#' s

/-- A character between double quotes. -/
def quoteChar (c : Char) : List Char :=
  match c.toNat with
  | 0x22 => ['\\', '"']
  | 0x5C => ['\\', '\\']
  | 0x00 => ['\\', '0']
  | 0x07 => ['\\', 'a']
  | 0x08 => ['\\', 'b']
  | 0x09 => ['\\', 't']
  | 0x0A => ['\\', 'n']
  | 0x0B => ['\\', 'v']
  | 0x0C => ['\\', 'f']
  | 0x0D => ['\\', 'r']
  | 0x1B => ['\\', 'e']
  | 0x85 => ['\\', 'N']
  | 0xA0 => ['\\', '_']
  | 0x2028 => ['\\', 'L']
  | 0x2029 => ['\\', 'P']
  | 0xFEFF => ['\\', 'u', 'F', 'E', 'F', 'F']
  | n => if Text.isControl c then '\\' :: 'x' :: Text.hexByte n else [c]

/-- A text between double quotes. -/
def quote (s : List Char) : List Char := '"' :: (s.flatMap quoteChar ++ ['"'])

/-- A text as it is written when no quotes are asked for. -/
def plainForm (s : List Char) : List Char := if isPlainSafe s then s else quote s

end Yaml

end NetProfile
