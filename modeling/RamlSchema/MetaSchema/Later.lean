import RamlSchema.MetaSchema.Definitions

/-!
# The meta-schemas of drafts 06 and 07

Schemas are objects or booleans, an exclusive bound is a number, and lists of names may be empty.
Draft 07 has more keywords, and the names of its pattern properties must be patterns; all else is
the same in both.
-/

namespace RamlSchema.MetaSchema.Later

def nameList : Node :=
  .keywords [.type [.array], .items (.ofKind .string), .uniqueItems]

def patternSchemas : Node :=
  .keywords [.type [.object], .additionalProperties (.reference .root),
    .propertyNames (.keywords [.format .regex])]

/-- The keywords that identify a schema and refer to others. -/
def references : List (String × Node) :=
  [("$id", .textOf .uriReference),
   ("$schema", .textOf .uri),
   ("$ref", .textOf .uriReference)]

/-- The keywords for numbers and texts. -/
def scalars : List (String × Node) :=
  [("multipleOf", .divisor),
   ("maximum", .ofKind .number),
   ("exclusiveMaximum", .ofKind .number),
   ("minimum", .ofKind .number),
   ("exclusiveMinimum", .ofKind .number),
   ("maxLength", .reference .count),
   ("minLength", .reference .countOrZero),
   ("pattern", .textOf .regex)]

/-- The keywords for arrays, and for objects up to the named schemas. -/
def containers : List (String × Node) :=
  [("additionalItems", .reference .root),
   ("items", .schemaOrList),
   ("maxItems", .reference .count),
   ("minItems", .reference .countOrZero),
   ("uniqueItems", .ofKind .boolean),
   ("contains", .reference .root),
   ("maxProperties", .reference .count),
   ("minProperties", .reference .countOrZero),
   ("required", .reference .nameList),
   ("additionalProperties", .reference .root),
   ("definitions", .namedSchemas),
   ("properties", .namedSchemas)]

/-- The keywords behind the pattern properties, up to the format. -/
def values : List (String × Node) :=
  [("dependencies", .dependencyTable),
   ("propertyNames", .reference .root),
   ("const", .anything),
   ("enum", .ofKind .array),
   ("type", .types),
   ("format", .ofKind .string)]

def combinations : List (String × Node) :=
  [("allOf", .reference .schemaList),
   ("anyOf", .reference .schemaList),
   ("oneOf", .reference .schemaList),
   ("not", .reference .root)]

/-- What the value under each keyword of a draft-06 schema must be. -/
def properties06 : List (String × Node) :=
  references ++
  [("title", .ofKind .string),
   ("description", .ofKind .string),
   ("default", .anything),
   ("examples", .keywords [.type [.array], .items .anything])] ++
  scalars ++ containers ++ [("patternProperties", .namedSchemas)] ++ values ++ combinations

/-- What the value under each keyword of a draft-07 schema must be. -/
def properties07 : List (String × Node) :=
  references ++
  [("$comment", .ofKind .string),
   ("title", .ofKind .string),
   ("description", .ofKind .string),
   ("default", .anything),
   ("readOnly", .ofKind .boolean),
   ("writeOnly", .ofKind .boolean),
   ("examples", .keywords [.type [.array], .items .anything])] ++
  scalars ++ containers ++ [("patternProperties", patternSchemas)] ++ values ++
  [("contentMediaType", .ofKind .string),
   ("contentEncoding", .ofKind .string),
   ("if", .reference .root),
   ("then", .reference .root),
   ("else", .reference .root)] ++ combinations

def root (properties : List (String × Node)) : Node :=
  .keywords [.type [.object, .boolean], .properties properties]

/-- The meta-schema of draft 06. A float without a fraction is an integer. -/
def metaSchema06 : MetaSchema :=
  assemble (root properties06) nameList true

/-- The meta-schema of draft 07. A float without a fraction is an integer. -/
def metaSchema07 : MetaSchema :=
  assemble (root properties07) nameList true

end RamlSchema.MetaSchema.Later
