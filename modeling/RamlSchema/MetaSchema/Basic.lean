import RamlSchema.Json.Equality
import RamlSchema.Json.Pointer
import RamlSchema.Json.Writer

/-!
# Meta-schemas

A meta-schema says of the values that may be schemas what keywords say of any value. Here is the
part of JSON Schema in which the three meta-schemas are written: the keywords that they use, in the
order in which they were written, and references to a small fixed set of definitions.
-/

namespace RamlSchema

/-- The kinds of values that the keyword `type` tells apart. -/
inductive Kind
  | array
  | boolean
  | integer
  | null
  | number
  | object
  | string
  deriving DecidableEq, Repr

def Kind.name : Kind → String
  | array => "array"
  | boolean => "boolean"
  | integer => "integer"
  | null => "null"
  | number => "number"
  | object => "object"
  | string => "string"

/-- The forms of text that the keyword `format` names. -/
inductive TextFormat
  | regex
  | uri
  | uriReference
  deriving DecidableEq, Repr

def TextFormat.name : TextFormat → String
  | regex => "regex"
  | uri => "uri"
  | uriReference => "uri-reference"

namespace MetaSchema

/-- What a reference in a meta-schema may lead to: the meta-schema itself or one of its definitions.
-/
inductive Definition
  | root
  | schemaList
  | count
  | countOrZero
  | simpleType
  | nameList
  deriving DecidableEq, Repr

mutual

/-- A place in a meta-schema: a reference, beside which nothing counts, or keywords in order. -/
inductive Node
  | reference (target : Definition)
  | keywords (all : List Keyword)

/-- A keyword with its argument. -/
inductive Keyword
  | type (kinds : List Kind)
  | properties (named : List (String × Node))
  | additionalProperties (node : Node)
  | propertyNames (node : Node)
  | dependencies (named : List (String × List String))
  | items (node : Node)
  | minItems (count : Nat)
  | uniqueItems
  | minimum (bound : Int)
  | exclusiveMinimum (bound : Int)
  | enum (allowed : List Json)
  | format (form : TextFormat)
  | anyOf (branches : List Node)
  | allOf (branches : List Node)

end

def Node.anything : Node :=
  .keywords []

def Node.ofKind (k : Kind) : Node :=
  .keywords [.type [k]]

end MetaSchema

/-- A meta-schema: what its references lead to, and whether a float without a fraction is an
integer. -/
structure MetaSchema where
  define : MetaSchema.Definition → MetaSchema.Node
  wholeFloats : Bool

end RamlSchema
