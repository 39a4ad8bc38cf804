import NetProfile.Text.Hex

/-!
# Percent escapes

Writes a text so that its ASCII characters outside a small set are spelled as a
percent sign and two hexadecimal digits. Characters beyond ASCII stay as they are.
-/

namespace NetProfile

namespace Text

/-- The ASCII characters that need no percent escape. -/
def isUnreserved (c : Char) : Bool :=
  c.isAlphanum || c == '-' || c == '.' || c == '_' || c == '~'

/-- A character as written. -/
def percentEncodeChar (c : Char) : List Char :=
  if isUnreserved c || 0x80 ≤ c.toNat then [c] else '%' :: hexByte c.toNat

/-- A text as written. -/
def percentEncode (s : List Char) : List Char := s.flatMap percentEncodeChar

end Text

end NetProfile
