import RamlSchema.Fix.Rule
import RamlSchema.Text.Split

/-!
# Vendor names

Processors put their mark in front of the keywords that they add. The mark is taken off, once, and
where two members of an object come to have one name, it stands where the first of them stood and
has the value of the last.
-/

namespace RamlSchema.VendorName

def mark : List Char :=
  "x-amf-".toList

def isMarked (name : String) : Bool :=
  (afterStart? mark name.toList).isSome

def unmark (name : String) : String :=
  match afterStart? mark name.toList with
  | some rest => String.ofList rest
  | none => name

def hasMarked (ms : Members) : Bool :=
  ms.any fun (k, _) => isMarked k

/-- The members under their names without the mark. -/
def unmarkAll (ms : Members) : Members :=
  Members.ofPairs (ms.map fun (k, v) => (unmark k, v))

def rule : Rule :=
  ⟨hasMarked, unmarkAll⟩

end RamlSchema.VendorName
