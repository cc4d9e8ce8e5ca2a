import RamlSchema.MetaSchema.Basic

/-!
# What the meta-schemas share

The drafts agree on most of the places to which their meta-schemas refer. A meta-schema is put
together from what is its own: what a schema is, what a list of names is, and whether a float
without a fraction counts as an integer.
-/

namespace RamlSchema.MetaSchema

namespace Node

def schemaList : Node :=
  .keywords [.type [.array], .minItems 1, .items (.reference .root)]

/-- A number of things: an integer from zero on. -/
def count : Node :=
  .keywords [.type [.integer], .minimum 0]

/-- A number of things that is zero where it is not given. -/
def countOrZero : Node :=
  .keywords [.allOf [.reference .count, .anything]]

def simpleType : Node :=
  .keywords [.enum [.string "array", .string "boolean", .string "integer", .string "null",
    .string "number", .string "object", .string "string"]]

/-- The name of a kind, or at least one name and none of them twice. -/
def types : Node :=
  .keywords [.anyOf [.reference .simpleType, .keywords [.type [.array],
    .items (.reference .simpleType), .minItems 1, .uniqueItems]]]

def divisor : Node :=
  .keywords [.type [.number], .exclusiveMinimum 0]

def textOf (form : TextFormat) : Node :=
  .keywords [.type [.string], .format form]

def schemaOrList : Node :=
  .keywords [.anyOf [.reference .root, .reference .schemaList]]

def namedSchemas : Node :=
  .keywords [.type [.object], .additionalProperties (.reference .root)]

def dependencyTable : Node :=
  .keywords [.type [.object],
    .additionalProperties (.keywords [.anyOf [.reference .root, .reference .nameList]])]

end Node

def assemble (root nameList : Node) (wholeFloats : Bool) : MetaSchema where
  define
    | .root => root
    | .schemaList => .schemaList
    | .count => .count
    | .countOrZero => .countOrZero
    | .simpleType => .simpleType
    | .nameList => nameList
  wholeFloats

end RamlSchema.MetaSchema
