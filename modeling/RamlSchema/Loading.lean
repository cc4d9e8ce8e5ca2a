import RamlSchema.Conversion

/-!
# Loading files

The text of a file, and the schema that it holds. A file that is not there is told apart from one
that cannot be read, and so is one that is not UTF-8.
-/

namespace RamlSchema

def textOfFile (path : String) (content : List UInt8) : Except ConversionError String :=
  match Utf8.decode? content with
  | some cs => .ok (String.ofList cs)
  | none => .error (.unreadable path "stream did not contain valid UTF-8")

def loadText {m : Type → Type} [Monad m] (host : Host m) (path : String) :
    m (Except ConversionError String) := do
  if ← host.isPresent path then
    match ← host.fileContent path with
    | .ok content => return textOfFile path content
    | .error e => return .error (.unreadable path e.message)
  else return .error (.fileMissing path)

def loadSchema {m : Type → Type} [Monad m] (host : Host m) (path : String) :
    m (Except ConversionError Json) := do
  match ← loadText host path with
  | .ok text => return loadSchemaText text
  | .error e => return .error e

end RamlSchema
