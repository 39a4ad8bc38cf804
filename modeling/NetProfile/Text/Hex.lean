/-!
# Hexadecimal digits

Numbers in base sixteen, as escapes write and read them.
-/

namespace NetProfile

namespace Text

/-- The capital hexadecimal digit of a number below sixteen. -/
def hexDigit (n : Nat) : Char :=
  if n < 10 then Char.ofNat ('0'.toNat + n) else Char.ofNat ('A'.toNat + (n - 10))

/-- The two hexadecimal digits of a number below 256. -/
def hexByte (n : Nat) : List Char := [hexDigit (n / 16), hexDigit (n % 16)]

/-- The value of a hexadecimal digit in either case. -/
def hexDigitValue? (c : Char) : Option Nat :=
  if '0' ≤ c ∧ c ≤ '9' then some (c.toNat - '0'.toNat)
  else if 'A' ≤ c ∧ c ≤ 'F' then some (c.toNat - 'A'.toNat + 10)
  else if 'a' ≤ c ∧ c ≤ 'f' then some (c.toNat - 'a'.toNat + 10)
  else none

/-- The digit of a number has its value. -/
theorem hexDigitValue?_hexDigit {n : Nat} (h : n < 16) :
    hexDigitValue? (hexDigit n) = some n := by
  have hall : ∀ m : Fin 16, hexDigitValue? (hexDigit m) = some m.val := by decide
  exact hall ⟨n, h⟩

end Text

end NetProfile
