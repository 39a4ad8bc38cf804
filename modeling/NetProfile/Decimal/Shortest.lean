import NetProfile.Decimal.Binary64

/-!
# Shortest decimal numbers

The shortest decimal number that rounds to a given number of double precision.

## Main definitions

- `Binary64.shortest` — the decimal number with the fewest digits
- `Shortest.pick?` — the candidate on one decimal grid

## Design notes

All bounds are fractions with one denominator, so the search is exact. A grid
has a point in the interval of numbers that round to a value only if one of the
two neighbours of the value on that grid is in it; the grids are tried from the
coarsest one on.
-/

namespace NetProfile

namespace Shortest

/-- The numbers that round to a value, all in units of one over `den`. -/
structure Interval where
  /-- The value itself. -/
  value : Nat
  lower : Nat
  upper : Nat
  den : Nat
  /-- Whether the bounds round to the value too. -/
  closed : Bool
  deriving Repr

/-- The numbers that round to `m` times two to the power `q`, in units of ten to
the power `k`. The gap below a power of two is half as wide as the one above. -/
def Interval.around (m : Nat) (q k : Int) : Interval :=
  let unit := Nat.pow 2 (q - 2).toNat * Nat.pow 10 (-k).toNat
  let narrow := m = Binary64.mantissaLimit / 2 ∧ Binary64.minPower < q
  { value := 4 * m * unit
    lower := (if narrow then 4 * m - 1 else 4 * m - 2) * unit
    upper := (4 * m + 2) * unit
    den := Nat.pow 2 (2 - q).toNat * Nat.pow 10 k.toNat
    closed := m % 2 = 0 }

/-- Whether the integer `n` rounds to the value. -/
def Interval.holds (i : Interval) (n : Nat) : Bool :=
  if i.closed then i.lower ≤ n * i.den && n * i.den ≤ i.upper
  else i.lower < n * i.den && n * i.den < i.upper

/-- The integer nearest to the value among those that round to it. -/
def pick? (tie : Binary64.Tie) (i : Interval) : Option Nat :=
  let below := i.value / i.den
  let above := below + 1
  match i.holds below, i.holds above with
  | true, true => some (Binary64.divNearest tie i.value i.den)
  | true, false => some below
  | false, true => some above
  | false, false => none

/-- The first decimal number found on the grids of ten to the power `k`, ten to
the power `k - 1` and so on, `n` grids in all. -/
def search (tie : Binary64.Tie) (m : Nat) (q : Int) : Nat → Int → Decimal
  | 0, k => ⟨m, k⟩
  | n + 1, k =>
    match pick? tie (Interval.around m q k) with
    | some digits => Decimal.dropZeros 2 ⟨digits, k⟩
    | none => search tie m q n (k - 1)

/-- A power of ten greater than `m` times two to the power `q`. -/
def powerAbove (m : Nat) (q : Int) : Int := (m.log2 + q + 1) * 30103 / 100000 + 1

end Shortest

namespace Binary64

/-- The decimal number with the fewest digits that rounds to `m` times two to the
power `q`, and of those the nearest; `tie` decides between two equally near ones.
Seventeen digits are always enough. -/
def shortest (tie : Tie) (m : Nat) (q : Int) : Decimal :=
  if m = 0 then ⟨0, 0⟩ else Shortest.search tie m q 20 (Shortest.powerAbove m q)

end Binary64

end NetProfile
