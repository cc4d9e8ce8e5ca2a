import RamlSchema.CommandLine.Report
import RamlSchema.CommandLine.Request
import RamlSchema.Loading
import RamlSchema.Processor.Command

/-!
# The program

What each command does on a host. A result goes to a file as it is, or to the standard output with a
line feed behind it.
-/

namespace RamlSchema.CommandLine

/-- Drops slashes, and dots that stand for a directory itself, from the end of a path. The path is
given last character first. -/
def dropReversedDots : List Char → List Char
  | '/' :: rest => dropReversedDots rest
  | '.' :: '/' :: rest => dropReversedDots rest
  | cs => cs

/-- The directory that a path to a file lies in, as the path writes it; a dot where it writes none.
-/
def parentDirectory (path : String) : String :=
  let above := (dropReversedDots path.toList.reverse).dropWhile (· != '/')
  match dropReversedDots above with
  | [] => if above.isEmpty then "." else "/"
  | cs => String.ofList cs.reverse

def layOut (pretty : Bool) (schema : Json) : String :=
  if pretty then schema.pretty else schema.compact

section

variable {m : Type → Type} [Monad m] (host : Host m)

def deliver (file : Option String) (text : String) : m Outcome := do
  match file with
  | none => return .say text
  | some path =>
    match ← host.writeFile path text with
    | .ok () => return ⟨0, "", ""⟩
    | .error e => return .complain 3 ("Error writing to " ++ path ++ ": " ++ e.message)

/-- Puts a schema where it is to go, or tells why there is none. -/
def deliverSchema (d : Destination) (result : Except ConversionError Json) : m Outcome :=
  match result with
  | .ok schema => deliver host d.file (layOut d.pretty schema)
  | .error e => pure (.failure e)

/-- Converts a type. The draft is looked at before any file. -/
def runConvert (r : ConvertRequest) : m Outcome := do
  match Draft.ofSelector? r.draft with
  | none => return .failure (.invalidDraft r.draft)
  | some draft =>
    match ← loadText host r.raml with
    | .error e => return .failure e
    | .ok raml =>
      let processor := Command.asProcessor host ⟨r.program, r.programArguments⟩
      let options : ConversionOptions := ⟨draft, r.validate, some (parentDirectory r.raml)⟩
      deliverSchema host r.destination (← convert processor options raml r.typeName)

def runWrap (raml typeName : String) (file : Option String) : m Outcome := do
  match ← loadText host raml with
  | .error e => return .failure e
  | .ok text => deliver host file (Document.wrap text typeName)

def runFix (schema : String) (d : Destination) : m Outcome := do
  deliverSchema host d ((← loadSchema host schema).map fixSchema)

/-- Migrates a schema. The draft is looked at before any file. -/
def runMigrate (schema selector : String) (d : Destination) : m Outcome := do
  match Draft.ofSelector? selector with
  | none => return .failure (.invalidDraft selector)
  | some draft => deliverSchema host d ((← loadSchema host schema).map (migrate · draft))

def findingOf : Except ConversionError Json → Finding
  | .ok schema => examine schema
  | .error e => .notLoaded e

def runValidate (schema : String) (json : Bool) : m Outcome := do
  return (findingOf (← loadSchema host schema)).outcome json

def runTask : Task → m Outcome
  | .convert r => runConvert host r
  | .wrap raml typeName file => runWrap host raml typeName file
  | .fix schema d => runFix host schema d
  | .migrate schema draft d => runMigrate host schema draft d
  | .validate schema json => runValidate host schema json

end

def usage : String :=
  "Usage: dt2js <COMMAND>\n\nCommands:\n" ++
  "  convert <RAML> <TYPE_NAME> --parser <PARSER> [--draft <DRAFT>] [--parser-arg <ARG>]... " ++
  "[--no-validate] [--output <FILE>] [--pretty]\n" ++
  "  wrap <RAML> <TYPE_NAME> [--output <FILE>]\n" ++
  "  fix <SCHEMA> [--output <FILE>] [--pretty]\n" ++
  "  migrate <SCHEMA> --draft <DRAFT> [--output <FILE>] [--pretty]\n" ++
  "  validate <SCHEMA> [--json]\n"

def versionText : String :=
  "dt2js 0.1.0"

/-- Runs the program with its arguments and the processor that its environment names. -/
def run {m : Type → Type} [Monad m] (host : Host m) (environmentParser : Option String)
    (arguments : List String) : m Outcome :=
  match readRequest environmentParser arguments with
  | .run task => runTask host task
  | .help => pure ⟨0, "Convert RAML data types to JSON Schema\n\n" ++ usage, ""⟩
  | .version => pure (.say versionText)
  | .misuse => pure ⟨2, "", "error: the arguments are not understood\n\n" ++ usage⟩

end RamlSchema.CommandLine
