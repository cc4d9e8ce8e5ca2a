import RamlSchema.Host
import RamlSchema.Json.Reader

/-!
# What a processor gives

A processor turns a wrapped RAML document into the schema of the type that its resource returns.
Here is all that can go wrong with one, and the reading of its output, which must be a JSON object.
-/

namespace RamlSchema

/-- Why there is no schema from a processor. -/
inductive ProcessorError
  /-- The document could not be written for it. -/
  | notWritten (reason : String)
  /-- The program could not be started. -/
  | notStarted (program reason : String)
  /-- The program ended badly. -/
  | failed (program status errors : String)
  /-- Its output is not JSON. -/
  | invalidJson (fault : ReadError)
  /-- Its output is JSON of another kind. -/
  | notAnObject (actual : String)
  deriving DecidableEq, Repr

namespace ProcessorError

def message : ProcessorError → String
  | notWritten reason => "cannot write wrapped RAML document: " ++ reason
  | notStarted program reason => "cannot run RAML parser '" ++ program ++ "': " ++ reason
  | failed program status errors =>
    "RAML parser '" ++ program ++ "' failed (" ++ status ++ "): " ++ errors
  | invalidJson fault => "RAML parser produced invalid JSON: " ++ fault.message
  | notAnObject actual =>
    "RAML parser output is " ++ actual ++ ", expected a JSON Schema object"

def exitCode : ProcessorError → Nat
  | notWritten _ => 3
  | notStarted _ _ => 3
  | failed _ _ _ => 2
  | invalidJson _ => 2
  | notAnObject _ => 2

end ProcessorError

/-- The schema of a document and a type, where inclusions are relative to a directory. -/
abbrev Processor (m : Type → Type) :=
  (document typeName : String) → (basePath : Option String) → m (Except ProcessorError Json)

def readOutput (output : List UInt8) : Except ProcessorError Json :=
  match Json.ofOctets output with
  | .error fault => .error (.invalidJson fault)
  | .ok v => if v.isObject then .ok v else .error (.notAnObject v.typeName)

end RamlSchema
