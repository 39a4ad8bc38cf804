/-!
# Blank and control characters, lines and trimming

Character classes that the profile format and the document writer share, and
the operations on character lists that rest on them.

## Main definitions

- `Text.isBlank` — the Unicode property `White_Space`
- `Text.isControl` — the general category `Cc`
- `Text.trim`, `Text.trimStart`, `Text.trimEnd`
- `Text.lines` — a text cut at its newlines
-/

namespace NetProfile

namespace Text

/-- The characters with the Unicode property `White_Space`. -/
def isBlank (c : Char) : Bool :=
  let n := c.toNat
  (0x09 ≤ n && n ≤ 0x0D) || n == 0x20 || n == 0x85 || n == 0xA0 || n == 0x1680
    || (0x2000 ≤ n && n ≤ 0x200A) || n == 0x2028 || n == 0x2029 || n == 0x202F
    || n == 0x205F || n == 0x3000

/-- The characters of the Unicode general category `Cc`. -/
def isControl (c : Char) : Bool :=
  let n := c.toNat
  n ≤ 0x1F || (0x7F ≤ n && n ≤ 0x9F)

/-- The text without its leading blanks. -/
def trimStart (s : List Char) : List Char := s.dropWhile isBlank

/-- The text without its trailing blanks. -/
def trimEnd (s : List Char) : List Char := (s.reverse.dropWhile isBlank).reverse

/-- The text without leading and trailing blanks. -/
def trim (s : List Char) : List Char := trimEnd (trimStart s)

/-- The text cut at its newlines. A newline ends a line, so a text that ends
with one has no empty last line. -/
def lines : List Char → List (List Char)
  | [] => []
  | c :: rest =>
    if c = '\n' then [] :: lines rest
    else
      match lines rest with
      | [] => [[c]]
      | line :: more => (c :: line) :: more

end Text

end NetProfile
