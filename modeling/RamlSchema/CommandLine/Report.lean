import RamlSchema.Conversion

/-!
# Reports on a schema

What the command that checks a schema says, in words for a reader or as one line of JSON. Both are
made from the same finding, so they cannot differ in what they say.
-/

namespace RamlSchema.CommandLine

/-- What a program leaves behind: its exit code and its two outputs. -/
structure Outcome where
  code : Nat
  stdout : String
  stderr : String
  deriving DecidableEq, Repr

def Outcome.say (line : String) : Outcome :=
  ⟨0, line ++ "\n", ""⟩

def Outcome.complain (code : Nat) (line : String) : Outcome :=
  ⟨code, "", line ++ "\n"⟩

def Outcome.failure (e : ConversionError) : Outcome :=
  .complain e.exitCode ("Error: " ++ e.message)

/-- What there is to say of a schema file. -/
inductive Finding
  /-- It could not be loaded. -/
  | notLoaded (error : ConversionError)
  /-- It was checked. -/
  | checked (declared : Except ValidityError Draft) (result : Except ValidityError Unit)

def examine (schema : Json) : Finding :=
  .checked (declaredDraft schema) (validate schema)

namespace Finding

def code : Finding → Nat
  | notLoaded e => e.exitCode
  | checked _ (.ok ()) => 0
  | checked _ (.error e) => e.exitCode

def loadingText (e : ConversionError) : String :=
  "loading schema: " ++ e.message

def inWords : Finding → Outcome
  | notLoaded e => .complain e.exitCode ("Error: " ++ loadingText e)
  | checked _ (.ok ()) => .say "Valid"
  | checked _ (.error e) => .complain e.exitCode e.message

/-- The member of a report for the draft, if one was declared. -/
def draftMember : Except ValidityError Draft → Members
  | .ok draft => [("draft", .string draft.selector)]
  | .error _ => []

/-- The member of a report for the place of an error, if it has one. -/
def pathMember : ValidityError → Members
  | .invalid path _ => [("path", .string path)]
  | .unknownDraft _ => []
  | .unavailable _ => []

def report : Finding → Json
  | notLoaded e => .object [("valid", .boolean false), ("error", .string (loadingText e))]
  | checked declared (.ok ()) => .object (("valid", .boolean true) :: draftMember declared)
  | checked declared (.error e) =>
    .object (("valid", .boolean false) ::
      (draftMember declared ++ pathMember e ++ [("error", .string e.message)]))

def inJson (f : Finding) : Outcome :=
  ⟨f.code, f.report.compact ++ "\n", ""⟩

def outcome (json : Bool) (f : Finding) : Outcome :=
  if json then f.inJson else f.inWords

end Finding

end RamlSchema.CommandLine
