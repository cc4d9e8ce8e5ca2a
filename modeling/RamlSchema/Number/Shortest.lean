import RamlSchema.Number.Binary64

/-!
# Shortest decimal digits

The decimal digits that stand for a double are the fewest that still round to it, and among those
the ones nearest to it. For each count of digits the two neighbours of the exact value on that
decimal grid are tested in exact arithmetic; if any decimal of so many digits rounds to the double,
one of the two does.
-/

namespace RamlSchema

/-- A decimal: `digits` times ten to the power `exponent`. -/
structure Decimal where
  digits : Nat
  exponent : Int
  deriving DecidableEq, Repr

namespace Decimal

/-- How many decimal digits a natural number has; zero has one. -/
def width (n : Nat) : Nat :=
  (Nat.toDigits 10 n).length

/-- The exponent of the first digit of `num / den`, which is positive. -/
def leadingExponent (num den : Nat) : Int :=
  if den ≤ num then (width (num / den) : Int) - 1
  else -(width ((den + num - 1) / num - 1) : Int)

/-- The decimals whose value rounds to one double: an interval given in quarter units of the
double's last place. -/
structure Basin where
  low : Nat
  value : Nat
  high : Nat
  closed : Bool
  exponent : Int

/-- The interval of reals that round to `x`. Below a power of two the next double is nearer, and the
ends belong to it if the significand is even. -/
def basin (x : Binary64) : Basin :=
  let m := x.significand
  let atPower := x.fraction.val = 0 && 1 < x.biased.val
  { low := 4 * m - (if atPower then 1 else 2), value := 4 * m, high := 4 * m + 2,
    closed := m % 2 = 0, exponent := x.exponent - 2 }

/-- Compares `digits · 10 ^ grid` with `quarters · 2 ^ exponent`. -/
def compareOnGrid (digits : Nat) (grid : Int) (quarters : Nat) (exponent : Int) : Ordering :=
  compare (digits * tenTo grid.toNat * twoTo (-exponent).toNat)
    (quarters * twoTo exponent.toNat * tenTo (-grid).toNat)

def Basin.holds (b : Basin) (digits : Nat) (grid : Int) : Bool :=
  let inside (o wanted : Ordering) := o == wanted || (b.closed && o == .eq)
  inside (compareOnGrid digits grid b.low b.exponent) .gt &&
    inside (compareOnGrid digits grid b.high b.exponent) .lt

/-- The point of the grid that stands for the interval, if either neighbour of the value lies in it:
the nearer one, and of two equally near the even one. -/
def Basin.pick? (b : Basin) (grid : Int) : Option Decimal :=
  let down := (b.value * twoTo b.exponent.toNat * tenTo (-grid).toNat) /
    (tenTo grid.toNat * twoTo (-b.exponent).toNat)
  let up := down + 1
  match b.holds down grid, b.holds up grid with
  | false, false => none
  | true, false => some ⟨down, grid⟩
  | false, true => some ⟨up, grid⟩
  | true, true =>
    match compareOnGrid (down + up) grid (2 * b.value) b.exponent with
    | .gt => some ⟨down, grid⟩
    | .lt => some ⟨up, grid⟩
    | .eq => some ⟨if down % 2 = 0 then down else up, grid⟩

/-- The first grid from the coarsest on, at most `more` steps finer, that has a point in the
interval. -/
def Basin.search (b : Basin) : Nat → Int → Decimal
  | 0, _ => ⟨b.value, 0⟩
  | more + 1, grid => (b.pick? grid).getD (b.search more (grid - 1))

/-- Moves zeros at the end of the digits into the exponent. -/
def strip : Nat → Decimal → Decimal
  | 0, d => d
  | fuel + 1, d =>
    if d.digits % 10 = 0 && d.digits != 0 then strip fuel ⟨d.digits / 10, d.exponent + 1⟩ else d

/-- The fewest digits that round to `x`; seventeen always do. Zero has the digit 0. -/
def shortest (x : Binary64) : Decimal :=
  if x.isZero then ⟨0, 0⟩
  else
    let (num, den) := x.magnitude
    strip 17 ((basin x).search 17 (leadingExponent num den))

end Decimal

end RamlSchema
