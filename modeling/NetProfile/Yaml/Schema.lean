import NetProfile.Text.Hex
import NetProfile.Yaml.Number

/-!
# The core schema

What a scalar without quotes stands for: nothing, a truth value, a number, or
just its text.

## Main definitions

- `Schema.isNull`, `Schema.bool?`, `Schema.integer?`, `Schema.float?` — the four
  kinds of text that stand for something else
- `Schema.resolve` — what a plain scalar stands for

## Design notes

Integers are recognized up to 128 binary digits. Those beyond 64 are known, so
that they are neither texts nor rounded, but they are no values.
-/

namespace NetProfile

namespace Yaml

/-- What a plain scalar stands for. -/
inductive Resolution where
  | null
  | bool (b : Bool)
  /-- An integer, which may be too wide for a value. -/
  | integer (n : Int)
  | float (x : Binary64)
  /-- Its own text. -/
  | text
  deriving DecidableEq, Repr

namespace Schema

/-- Whether the text spells an absent value. -/
def isNull (s : List Char) : Bool :=
  [[], "null".toList, "Null".toList, "NULL".toList, "~".toList].contains s

/-- The truth value that the text spells. -/
def bool? (s : List Char) : Option Bool :=
  if ["true".toList, "True".toList, "TRUE".toList].contains s then some true
  else if ["false".toList, "False".toList, "FALSE".toList].contains s then some false
  else none

/-- Appends a digit to a number. -/
def pushDigit? (base n : Nat) (c : Char) : Option Nat :=
  match Text.hexDigitValue? c with
  | some d => if d < base then some (n * base + d) else none
  | none => none

/-- The number that a text of digits spells; there has to be one. -/
def digits? (base : Nat) (s : List Char) : Option Nat :=
  if s.isEmpty then none else s.foldlM (pushDigit? base) 0

/-- Whether the text is a zero with more decimal digits behind it, which is no
number. -/
def hasLeadingZero : List Char → Bool
  | '0' :: rest => !rest.isEmpty && rest.all Char.isDigit
  | _ => false

/-- The number that a text without a sign spells, in decimal digits or in the
base that its first two characters name. -/
def magnitude? : List Char → Option Nat
  | '0' :: 'x' :: rest => digits? 16 rest
  | '0' :: 'o' :: rest => digits? 8 rest
  | '0' :: 'b' :: rest => digits? 2 rest
  | s => if hasLeadingZero s then none else digits? 10 s

/-- Whether the text starts with a minus, and the text behind its sign. -/
def splitSign : List Char → Bool × List Char
  | '-' :: rest => (true, rest)
  | '+' :: rest => (false, rest)
  | s => (false, s)

/-- The integer of at most 128 binary digits that the text spells. -/
def integer? (s : List Char) : Option Int :=
  let (negative, body) := splitSign s
  match magnitude? body with
  | some n =>
    if negative then (if n ≤ Nat.pow 2 127 then some (-(n : Int)) else none)
    else if n < Nat.pow 2 128 then some (n : Int)
    else none
  | none => none

/-- Whether an integer is a value: with or without a sign, in 64 binary digits. -/
def fitsWord (n : Int) : Bool := -(Nat.pow 2 63 : Int) ≤ n && n < Nat.pow 2 64

/-- The exponent that the text behind the digits of a number gives. -/
def exponent? : List Char → Option Int
  | [] => some 0
  | c :: rest =>
    if c = 'e' ∨ c = 'E' then
      let (negative, body) := splitSign rest
      (digits? 10 body).map (fun n => if negative then -(n : Int) else n)
    else none

/-- The fraction digits behind a decimal point, if there is one, and what follows. -/
def splitFraction : List Char → List Char × List Char
  | '.' :: rest => (rest.takeWhile Char.isDigit, rest.dropWhile Char.isDigit)
  | s => ([], s)

/-- The decimal number that a text without a sign spells. There is a digit before
or behind the decimal point. -/
def decimal? (s : List Char) : Option Decimal :=
  let (fraction, rest) := splitFraction (s.dropWhile Char.isDigit)
  match digits? 10 (s.takeWhile Char.isDigit ++ fraction), exponent? rest with
  | some digits, some exponent => some ⟨digits, exponent - fraction.length⟩
  | _, _ => none

/-- Whether the text spells the infinity. -/
def isInfinity (s : List Char) : Bool :=
  [".inf".toList, ".Inf".toList, ".INF".toList].contains s

/-- Whether the text spells the undefined number. -/
def isNan (s : List Char) : Bool := [".nan".toList, ".NaN".toList, ".NAN".toList].contains s

/-- The floating-point number that the text spells. Decimal numbers out of range
are no numbers. -/
def float? (s : List Char) : Option Binary64 :=
  let (negative, body) := splitSign s
  if isNan s then some .nan
  else if isInfinity body then some (.infinite negative)
  else ((decimal? body).map (Binary64.ofDecimal negative)).filter Binary64.isFinite

/-- What a plain scalar stands for. -/
def resolve (s : List Char) : Resolution :=
  if isNull s then .null
  else
    match bool? s, integer? s with
    | some b, _ => .bool b
    | none, some n => .integer n
    | none, none =>
      if hasLeadingZero (splitSign s).2 then .text
      else
        match float? s with
        | some x => .float x
        | none => .text

end Schema

end Yaml

end NetProfile
