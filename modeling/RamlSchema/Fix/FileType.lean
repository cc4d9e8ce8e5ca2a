import RamlSchema.Fix.Rule

/-!
# File types

RAML has a type `file`, which JSON Schema does not know. Such an object becomes a string with a
description of its media: binary, and of one of the media types that were declared for the file, if
any were.
-/

namespace RamlSchema.FileType

def mediaTypesName : String :=
  "x-amf-fileTypes"

/-- An object of type `file`. -/
def isFile (ms : Members) : Bool :=
  ms.find? "type" = some (.string "file")

/-- The alternatives for the media of a file, one for each declared type; none if nothing or an
empty list was declared. -/
def alternatives : Option Json → Members
  | some (.array (t :: ts)) =>
    [("anyOf", .array ((t :: ts).map fun mediaType => .object [("mediaType", mediaType)]))]
  | _ => []

def media (declared : Option Json) : Json :=
  .object (("binaryEncoding", .string "binary") :: alternatives declared)

/-- The members of a file as those of a binary string. The list of media types is used up. -/
def describe (ms : Members) : Members :=
  ((ms.remove mediaTypesName).put "type" (.string "string")).put "media"
    (media (ms.find? mediaTypesName))

def rule : Rule :=
  ⟨isFile, describe⟩

end RamlSchema.FileType
