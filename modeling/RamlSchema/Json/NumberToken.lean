import RamlSchema.Json.Fault
import RamlSchema.Number.Basic

/-!
# Reading a number

An integer literal that fits 64 bits is kept exactly. Every other literal becomes a double in three
steps, of which only the last two round: its digits are gathered into a significand below 2^64 with
a power of ten beside it, the significand is rounded to a double, and one multiplication or division
by a power of ten follows.
-/

namespace RamlSchema.Json

def isDigit (b : UInt8) : Bool :=
  0x30 ≤ b && b ≤ 0x39

def digitValue (b : UInt8) : Nat :=
  b.toNat - 0x30

/-- Significands stay below this. -/
def significandLimit : Nat :=
  0x10000000000000000

/-- Exponents of ten stay below this; it is the first that a 32-bit integer cannot hold. -/
def exponentLimit : Nat :=
  0x80000000

/-- A minus sign and a significand up to this make an integer of 64 bits. -/
def negativeLimit : Nat :=
  0x8000000000000000

/-- Appends digits to `n` as long as the result stays below `limit`. Gives the result, how many
digits were taken, and what is left. -/
def gather (limit n : Nat) : List UInt8 → Nat × Nat × List UInt8
  | [] => (n, 0, [])
  | b :: rest =>
    if isDigit b && n * 10 + digitValue b < limit then
      let (m, taken, rest) := gather limit (n * 10 + digitValue b) rest
      (m, taken + 1, rest)
    else (n, 0, b :: rest)

def skipDigits : List UInt8 → Nat × List UInt8
  | [] => (0, [])
  | b :: rest =>
    if isDigit b then
      let (skipped, rest) := skipDigits rest
      (skipped + 1, rest)
    else (0, b :: rest)

def digitNext : List UInt8 → Bool
  | [] => false
  | b :: _ => isDigit b

/-- What stands behind `e` or `E`, if one comes next. -/
def afterExponentMark? : List UInt8 → Option (List UInt8)
  | [] => none
  | b :: rest => if b = 0x65 || b = 0x45 then some rest else none

def afterPoint? : List UInt8 → Option (List UInt8)
  | [] => none
  | b :: rest => if b = 0x2E then some rest else none

def doubleOfNat? (n : Nat) : Option Binary64 :=
  Binary64.nearest? false n 1

/-- The greatest power of ten that a double can come near to. -/
def greatestTen : Nat :=
  308

/-- Scales `x` by ten to the power `exponent`: one multiplication or one division by a power up to
10^308. A smaller exponent takes further divisions by 10^308 until it is in range or nothing is left
of `x`; a greater one is out of range unless `x` is zero. Each round of `fuel` brings the exponent
308 nearer. -/
def scale? : Nat → Binary64 → Int → Option Binary64
  | 0, _, _ => none
  | fuel + 1, x, exponent =>
    if exponent.natAbs ≤ greatestTen then do
      let power ← doubleOfNat? (tenTo exponent.natAbs)
      if 0 ≤ exponent then x.timesMagnitude? power else x.overMagnitude? power
    else if x.isZero then some x
    else if 0 ≤ exponent then none
    else do
      let power ← doubleOfNat? (tenTo greatestTen)
      scale? fuel (← x.overMagnitude? power) (exponent + greatestTen)

/-- The double that a significand and a power of ten make, with a sign. -/
def assemble? (negative : Bool) (significand : Nat) (exponent : Int) : Option Binary64 := do
  let x ← doubleOfNat? significand
  let scaled ← scale? (exponent.natAbs / greatestTen + 2) x exponent
  return { scaled with negative }

/-- The number with this significand and power of ten, where `rest` is left behind it. -/
def floatNumber (negative : Bool) (significand : Nat) (exponent : Int) (rest : List UInt8) :
    Read Number :=
  match assemble? negative significand exponent with
  | some x => .ok (.float x, rest)
  | none => .error (.behind .numberOutOfRange rest)

/-- The sign of an exponent, if there is one: whether it is a minus, and what follows. -/
def exponentSign : List UInt8 → Bool × List UInt8
  | [] => (false, [])
  | b :: rest =>
    if b = 0x2B then (false, rest) else if b = 0x2D then (true, rest) else (false, b :: rest)

/-- Reads what stands behind `e`. An exponent too long for 32 bits makes a zero if it is negative or
the digits are all zero, and is out of range, as soon as it is too long, otherwise. -/
def readExponent (negative : Bool) (significand : Nat) (exponent : Int) (text : List UInt8) :
    Read Number :=
  let (minus, digits) := exponentSign text
  match digits with
  | [] => .error (.behind .endOfValue [])
  | b :: rest =>
    if !isDigit b then .error (.behind .invalidNumber rest)
    else
      let (e, _, rest) := gather exponentLimit (digitValue b) rest
      if digitNext rest then
        if significand = 0 || minus then
          .ok (.float (Binary64.zero negative), (skipDigits rest).2)
        else .error (.behind .numberOutOfRange (rest.drop 1))
      else floatNumber negative significand (if minus then exponent - e else exponent + e) rest

/-- Reads on where only an exponent may follow. -/
def readAfterDigits (negative : Bool) (significand : Nat) (exponent : Int) (text : List UInt8) :
    Read Number :=
  match afterExponentMark? text with
  | some rest => readExponent negative significand exponent rest
  | none => floatNumber negative significand exponent text

/-- Reads what stands behind the point: at least one digit. Digits that no longer fit the
significand are dropped. -/
def readFraction (negative : Bool) (significand : Nat) (exponent : Int) (text : List UInt8) :
    Read Number :=
  let (m, taken, rest) := gather significandLimit significand text
  if digitNext rest then readAfterDigits negative m (exponent - taken) (skipDigits rest).2
  else if taken = 0 then
    .error (.upon (if rest.isEmpty then .endOfValue else .invalidNumber) rest)
  else readAfterDigits negative m (exponent - taken) rest

/-- A literal without fraction and exponent: an integer if it fits 64 bits with its sign, and for
negative zero and all else a double. -/
def integerNumber (negative : Bool) (significand : Nat) (rest : List UInt8) : Read Number :=
  if !negative then .ok (.integer significand, rest)
  else if 0 < significand && significand ≤ negativeLimit then .ok (.integer (-significand), rest)
  else floatNumber negative significand 0 rest

/-- Reads on behind the digits of the integer part; `dropped` of them did not fit the significand.
-/
def readAfterInteger (negative : Bool) (significand dropped : Nat) (text : List UInt8) :
    Read Number :=
  match afterPoint? text with
  | some rest => readFraction negative significand dropped rest
  | none =>
    match afterExponentMark? text with
    | some rest => readExponent negative significand dropped rest
    | none =>
      if dropped = 0 then integerNumber negative significand text
      else floatNumber negative significand dropped text

/-- Reads a number whose minus sign, if any, has been taken. A zero at the front is the whole
integer part. -/
def readNumber (negative : Bool) : List UInt8 → Read Number
  | [] => .error (.behind .endOfValue [])
  | b :: rest =>
    if b = 0x30 then
      if digitNext rest then .error (.upon .invalidNumber rest)
      else readAfterInteger negative 0 0 rest
    else if isDigit b then
      let (m, _, rest) := gather significandLimit (digitValue b) rest
      let (dropped, rest) := skipDigits rest
      readAfterInteger negative m dropped rest
    else .error (.behind .invalidNumber rest)

end RamlSchema.Json
