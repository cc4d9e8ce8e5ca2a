import RamlSchema.Document.Wrapping
import RamlSchema.Fix.Schema
import RamlSchema.MetaSchema.Validity
import RamlSchema.Migration
import RamlSchema.Processor.Output

/-!
# Conversion of a type

A library is wrapped, handed to a processor, and what comes back is fixed, migrated and checked. The
first thing that goes wrong ends the conversion, and its error is the result.
-/

namespace RamlSchema

/-- All that can go wrong between the file of a library and a schema. -/
inductive ConversionError
  | fileMissing (path : String)
  | unreadable (path reason : String)
  | invalidJson (fault : ReadError)
  | wrongHeader (found : String)
  | invalidDraft (selector : String)
  | processor (error : ProcessorError)
  | validity (error : ValidityError)
  deriving DecidableEq, Repr

namespace ConversionError

def message : ConversionError → String
  | fileMissing path => "file not found: " ++ path
  | unreadable path reason => "cannot read " ++ path ++ ": " ++ reason
  | invalidJson fault => "invalid JSON: " ++ fault.message
  | wrongHeader found =>
    "expected a '#%RAML 1.0 Library' document, found header \"" ++ found ++ "\""
  | invalidDraft selector =>
    "invalid draft \"" ++ selector ++ "\": expected 04, 06 or 07"
  | processor error => error.message
  | validity error => error.message

def exitCode : ConversionError → Nat
  | fileMissing _ => 3
  | unreadable _ _ => 3
  | invalidJson _ => 2
  | wrongHeader _ => 2
  | invalidDraft _ => 2
  | processor error => error.exitCode
  | validity error => error.exitCode

end ConversionError

/-- What is asked of a conversion. -/
structure ConversionOptions where
  draft : Draft := .draft04
  validate : Bool := true
  basePath : Option String := none
  deriving DecidableEq, Repr

abbrev Validator (m : Type → Type) :=
  Json → m (Except ValidityError Unit)

def metaSchemaValidator {m : Type → Type} [Monad m] : Validator m :=
  fun schema => pure (validate schema)

def unavailableValidator {m : Type → Type} [Monad m] (reason : String) : Validator m :=
  fun _ => pure (.error (.unavailable reason))

/-- The schema that a conversion makes of what a processor gave. -/
def finishSchema (raw : Json) (draft : Draft) : Json :=
  migrate (fixSchema raw) draft

/-- The schema of a type of a library, by a processor and, if it is asked for, a check. -/
def convertWith {m : Type → Type} [Monad m] (processor : Processor m) (validator : Validator m)
    (options : ConversionOptions) (raml typeName : String) :
    m (Except ConversionError Json) := do
  match Document.checkHeader raml with
  | .error e => return .error (.wrongHeader e.found)
  | .ok () =>
    match ← processor (Document.wrap raml typeName) typeName options.basePath with
    | .error e => return .error (.processor e)
    | .ok raw =>
      let schema := finishSchema raw options.draft
      if options.validate then
        match ← validator schema with
        | .error e => return .error (.validity e)
        | .ok () => return .ok schema
      else return .ok schema

/-- The schema of a type of a library, checked against the meta-schemas unless that is not wanted.
-/
def convert {m : Type → Type} [Monad m] (processor : Processor m) (options : ConversionOptions)
    (raml typeName : String) : m (Except ConversionError Json) :=
  convertWith processor metaSchemaValidator options raml typeName

/-- The schema in the terms of the draft that two digits select. -/
def migrateTo (schema : Json) (selector : String) : Except ConversionError Json :=
  match Draft.ofSelector? selector with
  | some draft => .ok (migrate schema draft)
  | none => .error (.invalidDraft selector)

def loadSchemaText (text : String) : Except ConversionError Json :=
  match Json.ofText text with
  | .ok v => .ok v
  | .error fault => .error (.invalidJson fault)

end RamlSchema
