import RamlSchema.Json.Basic

/-!
# Equality of JSON values

Values are the same if their numbers are the same rationals and all else agrees, the order of
members included. Two texts of one number, `1` and `1.0`, therefore make no difference, and two
orders of one object do. The items of a long list are told apart by keys, which know the sign of a
zero; so equality comes in a form that tells a zero from its negative as well.
-/

namespace RamlSchema.Json

mutual

/-- Equality with numbers compared by value, and, with `signed`, by the sign of a zero. -/
def sameValue (signed : Bool) : Json → Json → Bool
  | null, null => true
  | boolean a, boolean b => a == b
  | number a, number b =>
    a.sameValue b && (!signed || a.isNegativeZero == b.isNegativeZero)
  | string a, string b => a == b
  | array a, array b => sameItems signed a b
  | object a, object b => sameMembers signed a b
  | _, _ => false
termination_by structural v => v

def sameItems (signed : Bool) : List Json → List Json → Bool
  | [], [] => true
  | v :: vs, w :: ws => sameValue signed v w && sameItems signed vs ws
  | _, _ => false
termination_by structural vs => vs

/-- The same names with the same values in the same order. -/
def sameMembers (signed : Bool) : List (String × Json) → List (String × Json) → Bool
  | [], [] => true
  | (k, v) :: ms, (l, w) :: ns => k == l && sameValue signed v w && sameMembers signed ms ns
  | _, _ => false
termination_by structural ms => ms

end

def noneRepeated (signed : Bool) : List Json → Bool
  | [] => true
  | v :: rest => !rest.any (sameValue signed v) && noneRepeated signed rest

/-- How many items a list may have before keys are made for them. -/
def shortListLimit : Nat :=
  15

/-- No two items of a list are the same, where a long list is looked at by keys. -/
def allDistinct (vs : List Json) : Bool :=
  noneRepeated (shortListLimit < vs.length) vs

end RamlSchema.Json
