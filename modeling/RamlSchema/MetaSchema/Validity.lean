import RamlSchema.Draft
import RamlSchema.MetaSchema.Draft04
import RamlSchema.MetaSchema.Evaluation
import RamlSchema.MetaSchema.Later

/-!
# Validity of schemas

A schema is valid if it satisfies the meta-schema of the draft that it names under `$schema`. One
that names none is of draft 04.
-/

namespace RamlSchema

/-- Why a schema does not pass. -/
inductive ValidityError
  /-- It breaks its meta-schema: where, and how. -/
  | invalid (path message : String)
  /-- What it names is none of the drafts. -/
  | unknownDraft (uri : String)
  /-- Nothing can be said of any schema. -/
  | unavailable (reason : String)
  deriving DecidableEq, Repr

namespace ValidityError

def message : ValidityError → String
  | invalid path remark => "Invalid JSON Schema: " ++ path ++ " " ++ remark
  | unknownDraft uri => "no schema with key or ref \"" ++ uri ++ "\""
  | unavailable reason => "validation requires the jsonschema engine: " ++ reason

def exitCode : ValidityError → Nat
  | invalid _ _ => 1
  | unknownDraft _ => 2
  | unavailable _ => 3

end ValidityError

/-- The draft that a schema names. What is no string is named by its text. -/
def declaredDraft (schema : Json) : Except ValidityError Draft :=
  match schema.member? "$schema" with
  | none => .ok .draft04
  | some (.string uri) =>
    match Draft.ofMetaSchemaUri? uri with
    | some draft => .ok draft
    | none => .error (.unknownDraft uri)
  | some other => .error (.unknownDraft other.compact)

def Draft.metaSchema : Draft → MetaSchema
  | draft04 => MetaSchema.Draft04.metaSchema
  | draft06 => MetaSchema.Later.metaSchema06
  | draft07 => MetaSchema.Later.metaSchema07

/-- Checks a schema against the meta-schema of a draft. A check never runs out of steps. -/
def validateAs (draft : Draft) (schema : Json) : Except ValidityError Unit :=
  match draft.metaSchema.verdict schema with
  | .ok () => .ok ()
  | .error (.violation v) => .error (.invalid v.path v.message)
  | .error .outOfSteps => .error (.unavailable "the check ran out of steps")

/-- Checks a schema against the meta-schema of the draft that it names. -/
def validate (schema : Json) : Except ValidityError Unit :=
  match declaredDraft schema with
  | .ok draft => validateAs draft schema
  | .error e => .error e

end RamlSchema
