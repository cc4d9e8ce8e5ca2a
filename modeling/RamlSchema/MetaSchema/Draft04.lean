import RamlSchema.MetaSchema.Definitions

/-!
# The meta-schema of draft 04

Schemas are objects. An exclusive bound is a flag that needs its bound beside it, and lists of names
and of allowed values have at least one item and none twice.
-/

namespace RamlSchema.MetaSchema.Draft04

def nameList : Node :=
  .keywords [.type [.array], .items (.ofKind .string), .minItems 1, .uniqueItems]

/-- A schema, or a flag that stands for all values or for none. -/
def schemaOrFlag : Node :=
  .keywords [.anyOf [.ofKind .boolean, .reference .root]]

/-- What the value under each keyword of a schema must be. -/
def properties : List (String × Node) :=
  [("id", .ofKind .string),
   ("$schema", .ofKind .string),
   ("title", .ofKind .string),
   ("description", .ofKind .string),
   ("default", .anything),
   ("multipleOf", .divisor),
   ("maximum", .ofKind .number),
   ("exclusiveMaximum", .ofKind .boolean),
   ("minimum", .ofKind .number),
   ("exclusiveMinimum", .ofKind .boolean),
   ("maxLength", .reference .count),
   ("minLength", .reference .countOrZero),
   ("pattern", .textOf .regex),
   ("additionalItems", schemaOrFlag),
   ("items", .schemaOrList),
   ("maxItems", .reference .count),
   ("minItems", .reference .countOrZero),
   ("uniqueItems", .ofKind .boolean),
   ("maxProperties", .reference .count),
   ("minProperties", .reference .countOrZero),
   ("required", .reference .nameList),
   ("additionalProperties", schemaOrFlag),
   ("definitions", .namedSchemas),
   ("properties", .namedSchemas),
   ("patternProperties", .namedSchemas),
   ("dependencies", .dependencyTable),
   ("enum", .keywords [.type [.array], .minItems 1, .uniqueItems]),
   ("type", .types),
   ("format", .ofKind .string),
   ("allOf", .reference .schemaList),
   ("anyOf", .reference .schemaList),
   ("oneOf", .reference .schemaList),
   ("not", .reference .root)]

def root : Node :=
  .keywords [.type [.object], .properties properties,
    .dependencies [("exclusiveMaximum", ["maximum"]), ("exclusiveMinimum", ["minimum"])]]

/-- The meta-schema. Only literals without fraction and exponent are integers. -/
def metaSchema : MetaSchema :=
  assemble root nameList false

end RamlSchema.MetaSchema.Draft04
