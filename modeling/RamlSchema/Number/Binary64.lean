/-!
# Finite binary64 numbers

A finite double is kept as its three fields, so that every operation is exact arithmetic on natural
numbers followed by one rounding to the nearest double, a tie going to the even significand. There
are no infinities and no NaN: an operation whose result is too large gives nothing.
-/

namespace RamlSchema

def twoTo (n : Nat) : Nat :=
  Nat.pow 2 n

def tenTo (n : Nat) : Nat :=
  Nat.pow 10 n

/-- The weight of the first of the 53 bits of a significand, which is not stored: 2^52. -/
abbrev hiddenBit : Nat :=
  0x10000000000000

/-- A finite IEEE 754 double: its sign, its biased exponent and the stored bits of its significand.
-/
structure Binary64 where
  negative : Bool
  biased : Fin 2047
  fraction : Fin hiddenBit
  deriving DecidableEq, Repr

namespace Binary64

/-- The zero of either sign. -/
def zero (negative : Bool) : Binary64 :=
  ⟨negative, 0, 0⟩

/-- The integer that, times a power of two, gives the magnitude. -/
def significand (x : Binary64) : Nat :=
  if x.biased.val = 0 then x.fraction.val else hiddenBit + x.fraction.val

/-- The exponent of that power of two. -/
def exponent (x : Binary64) : Int :=
  if x.biased.val = 0 then -1074 else x.biased.val - 1075

def isZero (x : Binary64) : Bool :=
  x.significand == 0

/-- The magnitude as a fraction: numerator and denominator. -/
def magnitude (x : Binary64) : Nat × Nat :=
  (x.significand * twoTo x.exponent.toNat, twoTo (-x.exponent).toNat)

def toRat (x : Binary64) : Rat :=
  let (num, den) := x.magnitude
  if x.negative then -mkRat num den else mkRat num den

/-- The quotient rounded to the nearest integer, a tie to the even one. -/
def divideToNearest (num den : Nat) : Nat :=
  let whole := num / den
  let rest := num % den
  if 2 * rest < den then whole
  else if den < 2 * rest then whole + 1
  else whole + whole % 2

/-- The exponent of the unit in which `num / den` has a significand of 53 bits, or the least
exponent there is. -/
def unitExponent (num den : Nat) : Int :=
  let guess : Int := (num.log2 : Int) - den.log2 - 52
  let fits := den * twoTo (guess + 52).toNat ≤ num * twoTo (-(guess + 52)).toNat
  max (if fits then guess else guess - 1) (-1074)

/-- The double with the given significand and exponent, where the significand has at most 53 bits,
and fewer only under the least exponent. -/
def ofParts? (negative : Bool) (significand : Nat) (exponent : Int) : Option Binary64 :=
  if significand < hiddenBit then some ⟨negative, 0, Fin.ofNat hiddenBit significand⟩
  else if h : (exponent + 1075).toNat < 2047 then
    some ⟨negative, ⟨(exponent + 1075).toNat, h⟩, Fin.ofNat hiddenBit significand⟩
  else none

/-- The double nearest to `num / den`; none if that is beyond the largest one. -/
def nearest? (negative : Bool) (num den : Nat) : Option Binary64 :=
  let unit := unitExponent num den
  let rounded := divideToNearest (num * twoTo (-unit).toNat) (den * twoTo unit.toNat)
  if rounded = 2 * hiddenBit then ofParts? negative hiddenBit (unit + 1)
  else ofParts? negative rounded unit

/-- The rounded product of two magnitudes, with the sign of the first. -/
def timesMagnitude? (x y : Binary64) : Option Binary64 :=
  let (a, b) := x.magnitude
  let (c, d) := y.magnitude
  nearest? x.negative (a * c) (b * d)

/-- The rounded quotient of two magnitudes, with the sign of the first. -/
def overMagnitude? (x y : Binary64) : Option Binary64 :=
  let (a, b) := x.magnitude
  let (c, d) := y.magnitude
  nearest? x.negative (a * d) (b * c)

end Binary64

end RamlSchema
