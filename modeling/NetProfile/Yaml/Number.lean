import NetProfile.Decimal.Shortest

/-!
# Numbers in documents

Integers and floating-point numbers, and the texts that stand for them.

## Main definitions

- `Yaml.Number`
- `Number.text` — a number as a document spells it
- `Number.fullText` — a number with all its digits, as messages show it
-/

namespace NetProfile

namespace Yaml

/-- A number. -/
inductive Number where
  | int (n : Int)
  | float (x : Binary64)
  deriving DecidableEq, Repr

/-- Whether decimal numbers with the decimal point at this place are written in
positions, not with an exponent. -/
def isPositional (point : Int) : Bool := -5 < point && point ≤ 16

/-- A decimal number as a document spells it. -/
def decimalText (d : Decimal) : String :=
  if isPositional d.pointPosition then d.positional else d.scientific

/-- The sign in front of a number. -/
def signText (negative : Bool) : String := if negative then "-" else ""

namespace Number

/-- The number as a document spells it. Floating-point numbers have the fewest
digits that read back, and a decimal point or an exponent; a last digit between
two equally near ones is even. -/
def text : Number → String
  | int n => toString n
  | float (.finite negative m q) => signText negative ++ decimalText (Binary64.shortest .toEven m q)
  | float (.infinite negative) => signText negative ++ ".inf"
  | float .nan => ".nan"

/-- The number without an exponent. A last digit between two equally near ones is
the greater. -/
def fullText : Number → String
  | int n => toString n
  | float (.finite negative m q) => signText negative ++ (Binary64.shortest .up m q).positional
  | float (.infinite negative) => signText negative ++ "inf"
  | float .nan => "NaN"

/-- Whether two numbers are the same number of the same sort. -/
def same : Number → Number → Bool
  | int m, int n => m == n
  | float x, float y => x.same y
  | _, _ => false

end Number

end Yaml

end NetProfile
