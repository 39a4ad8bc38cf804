import Mathlib.Data.List.Basic
import NetProfile.Text.Percent

/-!
# Reading percent escapes

Percent escapes can be undone: a percent sign is always written as an escape, so each one
that is read begins an escape, and what it spells is the character that was written.

## Main definitions

- `Text.percentDecode` — a text with the escapes replaced by what they spell
- `Text.PercentEncoded` — texts of unescaped characters and escapes in capital digits

## Main results

- `Text.percentEncoded_percentEncode` — what is written has that form
- `Text.percentDecode_percentEncode` — and reads as the text that was written
- `Text.percentEncode_injective`
-/

namespace NetProfile

namespace Text

/-- The text with each escape replaced by the character whose code it spells. -/
def percentDecode : List Char → List Char
  | '%' :: x :: y :: rest =>
    match hexDigitValue? x, hexDigitValue? y with
    | some m, some n => Char.ofNat (m * 16 + n) :: percentDecode rest
    | _, _ => '%' :: percentDecode (x :: y :: rest)
  | c :: rest => c :: percentDecode rest
  | [] => []

/-- Whether the character is a decimal digit or one of the capital letters up to F. -/
def isCapitalHexDigit (c : Char) : Bool := c.isDigit || ('A' ≤ c && c ≤ 'F')

/-- Texts of characters that need no escape and of escapes in capital digits. -/
inductive PercentEncoded : List Char → Prop
  | nil : PercentEncoded []
  /-- A character that stands for itself. -/
  | plain {c : Char} {rest : List Char} (hc : isUnreserved c = true ∨ 0x80 ≤ c.toNat)
      (h : PercentEncoded rest) : PercentEncoded (c :: rest)
  /-- An escape. -/
  | escape {x y : Char} {rest : List Char} (hx : isCapitalHexDigit x = true)
      (hy : isCapitalHexDigit y = true) (h : PercentEncoded rest) :
      PercentEncoded ('%' :: x :: y :: rest)

theorem isCapitalHexDigit_hexDigit {n : Nat} (h : n < 16) :
    isCapitalHexDigit (hexDigit n) = true := by
  have hall : ∀ m : Fin 16, isCapitalHexDigit (hexDigit m) = true := by decide
  exact hall ⟨n, h⟩

/-- A character stands for itself, or is spelled by an escape if it is in ASCII. -/
theorem percentEncodeChar_cases (c : Char) :
    (percentEncodeChar c = [c] ∧ (isUnreserved c = true ∨ 0x80 ≤ c.toNat)) ∨
      (percentEncodeChar c = '%' :: hexByte c.toNat ∧ c.toNat < 0x80) := by
  rw [percentEncodeChar]
  by_cases h : (isUnreserved c || 0x80 ≤ c.toNat) = true
  · rw [if_pos h]
    simp only [Bool.or_eq_true, decide_eq_true_eq] at h
    exact Or.inl ⟨rfl, h⟩
  · rw [if_neg h]
    simp only [Bool.or_eq_true, decide_eq_true_eq, not_or] at h
    exact Or.inr ⟨rfl, Nat.not_le.1 h.2⟩

theorem ne_percent {c : Char} (h : isUnreserved c = true ∨ 0x80 ≤ c.toNat) : c ≠ '%' := by
  rintro rfl
  exact absurd h (by decide)

theorem PercentEncoded.percentEncodeChar_append {rest : List Char} (h : PercentEncoded rest)
    (c : Char) : PercentEncoded (percentEncodeChar c ++ rest) := by
  obtain ⟨hchar, hself⟩ | ⟨hchar, hascii⟩ := percentEncodeChar_cases c
  · rw [hchar]
    exact .plain hself h
  · rw [hchar]
    exact .escape (isCapitalHexDigit_hexDigit (by omega)) (isCapitalHexDigit_hexDigit (by omega)) h

theorem percentEncoded_percentEncode (s : List Char) : PercentEncoded (percentEncode s) := by
  induction s with
  | nil => exact .nil
  | cons c rest ih => exact ih.percentEncodeChar_append c

theorem percentDecode_cons {c : Char} (h : c ≠ '%') (rest : List Char) :
    percentDecode (c :: rest) = c :: percentDecode rest := by
  rw [percentDecode]
  intro _ _ _ hc _
  exact h hc

theorem percentDecode_hexByte {n : Nat} (h : n < 256) (rest : List Char) :
    percentDecode ('%' :: (hexByte n ++ rest)) = Char.ofNat n :: percentDecode rest := by
  rw [hexByte, List.cons_append, List.singleton_append, percentDecode,
    hexDigitValue?_hexDigit (by omega), hexDigitValue?_hexDigit (by omega)]
  dsimp only
  rw [Nat.div_add_mod']

theorem percentDecode_percentEncodeChar_append (c : Char) (rest : List Char) :
    percentDecode (percentEncodeChar c ++ rest) = c :: percentDecode rest := by
  obtain ⟨hchar, hself⟩ | ⟨hchar, hascii⟩ := percentEncodeChar_cases c
  · rw [hchar]
    exact percentDecode_cons (ne_percent hself) rest
  · rw [hchar, List.cons_append, percentDecode_hexByte (by omega), Char.ofNat_toNat]

theorem percentDecode_percentEncode (s : List Char) : percentDecode (percentEncode s) = s := by
  induction s with
  | nil => rfl
  | cons c rest ih =>
    show percentDecode (percentEncodeChar c ++ percentEncode rest) = _
    rw [percentDecode_percentEncodeChar_append, ih]

theorem percentEncode_injective : Function.Injective percentEncode :=
  Function.LeftInverse.injective percentDecode_percentEncode

end Text

end NetProfile
