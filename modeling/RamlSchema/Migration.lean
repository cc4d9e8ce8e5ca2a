import RamlSchema.Draft

/-!
# Migration to a later draft

Schemas come in the terms of draft 04. Drafts 06 and 07 write `$id` for `id`, have `const` for a
single allowed value, and give an exclusive bound as a number of its own and not as a flag beside
the bound. A schema is migrated at every place where a schema stands, and nowhere else: what stands
under `default`, `enum` or an unknown keyword is data.
-/

namespace RamlSchema

namespace Migration

/-- What stands under a keyword: one schema, a schema or a list of them, schemas under names of the
author's own, or data. -/
inductive Position
  | schema
  | schemas
  | named
  | data
  deriving DecidableEq, Repr

def schemaKeywords : List String :=
  ["additionalItems", "additionalProperties", "not", "contains", "propertyNames"]

/-- Keywords whose value is a schema or a list of schemas. -/
def schemasKeywords : List String :=
  ["items", "allOf", "anyOf", "oneOf"]

/-- Keywords whose value has schemas under names. A dependency on names is a list and no schema. -/
def namedKeywords : List String :=
  ["properties", "patternProperties", "definitions", "dependencies"]

def position (keyword : String) : Position :=
  if keyword ∈ schemaKeywords then .schema
  else if keyword ∈ schemasKeywords then .schemas
  else if keyword ∈ namedKeywords then .named
  else .data

/-- A string under `id` goes under `$id`, unless that is there already. -/
def renameId (ms : Members) : Members :=
  match ms.find? "id" with
  | some (.string s) => if ms.has "$id" then ms else ms.replace "id" "$id" (.string s)
  | _ => ms

/-- A single allowed value beside a type becomes a constant, unless there is one already. -/
def collapseEnum (ms : Members) : Members :=
  if ms.has "type" && !ms.has "const" then
    match ms.find? "enum" with
    | some (.array [v]) => ms.replace "enum" "const" v
    | _ => ms
  else ms

/-- A flag that makes a bound exclusive takes the place of the bound; a flag that is false or has no
number to speak of is dropped. -/
def liftBound (flag bound : String) (ms : Members) : Members :=
  match ms.find? flag with
  | some (.boolean exclusive) =>
    match exclusive, ms.find? bound with
    | true, some (.number n) => (ms.remove bound).put flag (.number n)
    | _, _ => ms.remove flag
  | _ => ms

/-- The keywords of one schema, those below it being migrated already. -/
def migrateKeywords (ms : Members) : Members :=
  liftBound "exclusiveMinimum" "minimum"
    (liftBound "exclusiveMaximum" "maximum" (collapseEnum (renameId ms)))

mutual

/-- A schema and all schemas in it, without regard to the draft that it names. -/
def migrateSchema : Json → Json
  | .object ms => .object (migrateKeywords (migrateMembers ms))
  | .null => .null
  | .boolean b => .boolean b
  | .number n => .number n
  | .string s => .string s
  | .array items => .array items
termination_by structural v => v

/-- The values under the keywords of a schema, each by what stands there. -/
def migrateMembers : List (String × Json) → List (String × Json)
  | [] => []
  | (k, v) :: rest =>
    let v' :=
      match position k, v with
      | .schema, v => migrateSchema v
      | .schemas, .array items => .array (migrateItems items)
      | .schemas, v => migrateSchema v
      | .named, .object named => .object (migrateNamed named)
      | _, v => v
    (k, v') :: migrateMembers rest
termination_by structural ms => ms

def migrateItems : List Json → List Json
  | [] => []
  | v :: rest => migrateSchema v :: migrateItems rest
termination_by structural vs => vs

def migrateNamed : List (String × Json) → List (String × Json)
  | [] => []
  | (k, v) :: rest => (k, migrateSchema v) :: migrateNamed rest
termination_by structural ms => ms

end

def declare (draft : Draft) : Json → Json
  | .object ms => .object (Members.put "$schema" (.string draft.metaSchemaUri) ms)
  | v => v

end Migration

/-- The schema in the terms of a draft. Draft 04 is what it is in already. -/
def migrate (schema : Json) : Draft → Json
  | .draft04 => schema
  | .draft06 => Migration.declare .draft06 (Migration.migrateSchema schema)
  | .draft07 => Migration.declare .draft07 (Migration.migrateSchema schema)

end RamlSchema
