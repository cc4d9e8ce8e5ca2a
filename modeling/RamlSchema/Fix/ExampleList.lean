import RamlSchema.Fix.Rule

/-!
# Lists of examples

Examples with names of their own are written as a mapping in RAML, and JSON Schema has a list of
examples. The names are dropped, and the values keep their order.
-/

namespace RamlSchema.ExampleList

def hasMapping (ms : Members) : Bool :=
  match ms.find? "examples" with
  | some (.object _) => true
  | _ => false

/-- The values of a mapping of examples, as a list in its place. -/
def flatten (ms : Members) : Members :=
  match ms.find? "examples" with
  | some (.object examples) => ms.put "examples" (.array (examples.map (·.2)))
  | _ => ms

def rule : Rule :=
  ⟨hasMapping, flatten⟩

end RamlSchema.ExampleList
