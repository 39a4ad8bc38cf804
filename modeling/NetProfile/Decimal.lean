/-!
# Decimal numbers

Numbers written with decimal digits, and the two ways of writing them.

## Main definitions

- `Decimal` — an integer times a power of ten
- `Decimal.positional`, `Decimal.scientific`
-/

namespace NetProfile

/-- The number `digits` times ten to the power `exponent`. -/
structure Decimal where
  digits : Nat
  exponent : Int
  deriving DecidableEq, Repr

namespace Decimal

/-- Moves trailing zeros of `digits` into the exponent, at most `n` of them. -/
def dropZeros : Nat → Decimal → Decimal
  | 0, d => d
  | n + 1, d =>
    if d.digits ≠ 0 ∧ d.digits % 10 = 0 then dropZeros n ⟨d.digits / 10, d.exponent + 1⟩ else d

/-- The digits from the first one on. -/
def digitText (d : Decimal) : String := toString d.digits

/-- The number of digits before the decimal point; zeros right behind the point
make it negative. -/
def pointPosition (d : Decimal) : Int := d.digitText.length + d.exponent

/-- So many zeros. -/
def zeros (n : Int) : String := String.ofList (List.replicate n.toNat '0')

/-- The number with a decimal point and at least one digit on either side of it. -/
def positional (d : Decimal) : String :=
  let point := d.pointPosition
  if 0 ≤ d.exponent then d.digitText ++ zeros d.exponent ++ ".0"
  else if 0 < point then
    String.ofList (d.digitText.toList.take point.toNat) ++ "."
      ++ String.ofList (d.digitText.toList.drop point.toNat)
  else "0." ++ zeros (-point) ++ d.digitText

/-- The number with one digit before the decimal point, which is left out when
no digit follows it, and an exponent. -/
def scientific (d : Decimal) : String :=
  let exponent := "e" ++ toString (d.pointPosition - 1)
  match d.digitText.toList with
  | [] => exponent
  | [c] => String.ofList [c] ++ exponent
  | c :: rest => String.ofList (c :: '.' :: rest) ++ exponent

end Decimal

end NetProfile
