import RamlSchema.Number.Shortest

/-!
# Numbers of a JSON text

A number is an integer where its text has neither fraction nor exponent and it fits a 64-bit word,
and a double otherwise. Two numbers are equal as values if they are the same rational, whatever
their kind.
-/

namespace RamlSchema

/-- A number as a JSON text gives it. -/
inductive Number
  | integer (value : Int)
  | float (value : Binary64)
  deriving DecidableEq, Repr

namespace Number

def toRat : Number → Rat
  | .integer n => n
  | .float x => x.toRat

/-- Equality as values: `1` and `1.0` are the same. -/
def sameValue (a b : Number) : Bool :=
  a.toRat = b.toRat

def isNegativeZero : Number → Bool
  | .integer _ => false
  | .float x => x.negative && x.isZero

def isIntegerLiteral : Number → Bool
  | .integer _ => true
  | .float _ => false

def isWhole (n : Number) : Bool :=
  n.toRat.den = 1

/-- The least exponent of the first digit that is written without an exponent. -/
def positionalFrom : Int :=
  -5

/-- The least exponent above those of the first digit that are written without an exponent. -/
def positionalBelow : Int :=
  16

def exponentText (e : Int) : List Char :=
  (if e < 0 then '-' else '+') :: Nat.toDigits 10 e.natAbs

/-- Digits whose first one has exponent `e`, with a point and no exponent. -/
def positionalText (digits : List Char) (e : Int) : List Char :=
  if e < 0 then '0' :: '.' :: (List.replicate (-e - 1).toNat '0' ++ digits)
  else
    let whole := e.toNat + 1
    let (front, back) := (digits.take whole, digits.drop whole)
    front ++ List.replicate (whole - digits.length) '0' ++
      '.' :: (if back.isEmpty then ['0'] else back)

/-- Digits whose first one has exponent `e`, with an exponent. -/
def scientificText (digits : List Char) (e : Int) : List Char :=
  match digits with
  | [] => []
  | [d] => d :: 'e' :: exponentText e
  | d :: more => d :: '.' :: (more ++ 'e' :: exponentText e)

/-- The text of a double: the shortest digits, a fraction always, an exponent only for very small
and very large values. -/
def floatText (x : Binary64) : List Char :=
  let d := Decimal.shortest x
  let digits := Nat.toDigits 10 d.digits
  let e := d.exponent + digits.length - 1
  let magnitude :=
    if positionalFrom ≤ e && e < positionalBelow then positionalText digits e
    else scientificText digits e
  if x.negative then '-' :: magnitude else magnitude

def integerText (n : Int) : List Char :=
  if n < 0 then '-' :: Nat.toDigits 10 n.natAbs else Nat.toDigits 10 n.natAbs

def text : Number → List Char
  | .integer n => integerText n
  | .float x => floatText x

end Number

end RamlSchema
