import NetProfile.Decimal

/-!
# Numbers of double precision

The floating-point numbers with 53 binary digits, as exact values, and the
rounding of decimal numbers to them.

## Main definitions

- `Binary64` — zeros, finite numbers, infinities and the undefined number
- `Binary64.ofDecimal` — the number nearest to a decimal number
- `Binary64.same` — equality of values

## Design notes

A finite number is an integer `m` times a power of two. Numbers that rounding
answers are in canonical form: `m` has 53 binary digits, or fewer together with
the least power, so that two of them have one value only when they agree.
-/

namespace NetProfile

/-- A number of double precision. -/
inductive Binary64 where
  /-- The number `m` times two to the power `q`, below zero if `negative`. -/
  | finite (negative : Bool) (m : Nat) (q : Int)
  | infinite (negative : Bool)
  | nan
  deriving DecidableEq, Repr

namespace Binary64

/-- The least power of two in a number. -/
def minPower : Int := -1074

/-- The greatest power of two in a number. -/
def maxPower : Int := 971

/-- One more than the greatest integer in a number. -/
def mantissaLimit : Nat := Nat.pow 2 53

/-- Which of two equally near integers is taken. -/
inductive Tie where
  | toEven
  | up
  deriving DecidableEq, Repr

/-- The quotient rounded to the nearest integer. -/
def divNearest (tie : Tie) (a b : Nat) : Nat :=
  let n := a / b
  let twice := 2 * (a % b)
  if twice < b then n
  else if b < twice then n + 1
  else
    match tie with
    | .toEven => if n % 2 = 0 then n else n + 1
    | .up => n + 1

/-- The fraction `a / b` divided by two to the power `q`, as a fraction. -/
def scaled (a b : Nat) (q : Int) : Nat × Nat :=
  (a * Nat.pow 2 (-q).toNat, b * Nat.pow 2 q.toNat)

/-- The power of two that leaves 53 binary digits before the point of `a / b`,
or the least power if that is greater. -/
def powerFor (a b : Nat) : Int :=
  let q := (a.log2 : Int) - b.log2 - 53
  let (num, den) := scaled a b q
  max minPower (if num / den < mantissaLimit then q else q + 1)

/-- The number nearest to the fraction `a / b`. -/
def ofFraction (negative : Bool) (a b : Nat) : Binary64 :=
  if a = 0 then .finite negative 0 minPower
  else
    let q := powerFor a b
    let (num, den) := scaled a b q
    let m := divNearest .toEven num den
    let (m, q) := if m = mantissaLimit then (m / 2, q + 1) else (m, q)
    if maxPower < q then .infinite negative else .finite negative m q

/-- The number nearest to a decimal number. Decimal numbers far out of range are
told by the length of their digits, so that no power of ten gets large. -/
def ofDecimal (negative : Bool) (d : Decimal) : Binary64 :=
  if d.digits = 0 then .finite negative 0 minPower
  else if 310 < (d.digits.log2 * 3 / 10 : Nat) + d.exponent then .infinite negative
  else if (d.digits.log2 / 3 + 2 : Nat) + d.exponent < -330 then .finite negative 0 minPower
  else
    ofFraction negative (d.digits * Nat.pow 10 d.exponent.toNat) (Nat.pow 10 (-d.exponent).toNat)

/-- Whether the number is neither infinite nor undefined. -/
def isFinite : Binary64 → Bool
  | finite .. => true
  | infinite _ | nan => false

/-- Whether two numbers have the same value. The two zeros have, and so has the
undefined number with itself. -/
def same : Binary64 → Binary64 → Bool
  | finite s m q, finite s' m' q' => (m == 0 && m' == 0) || (s == s' && m == m' && q == q')
  | infinite s, infinite s' => s == s'
  | nan, nan => true
  | _, _ => false

end Binary64

end NetProfile
