/-!
# Ranges of characters

Properties of characters that no rule gives are kept as ranges of codes in ascending order.
-/

namespace RamlSchema

/-- A list of ranges, both ends included. -/
abbrev CharRanges :=
  List (Nat × Nat)

def CharRanges.contains (ranges : CharRanges) (c : Char) : Bool :=
  ranges.any fun (low, high) => low ≤ c.toNat && c.toNat ≤ high

end RamlSchema
