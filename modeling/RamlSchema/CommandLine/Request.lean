import RamlSchema.CommandLine.Option

/-!
# Requests

The five commands with what each of them takes, and what a whole list of arguments asks for.
-/

namespace RamlSchema.CommandLine

/-- Where a result goes and how it is laid out. -/
structure Destination where
  file : Option String
  pretty : Bool
  deriving DecidableEq, Repr

/-- A conversion: what is converted, by which program, and what becomes of the result. -/
structure ConvertRequest where
  raml : String
  typeName : String
  draft : String
  program : String
  programArguments : List String
  validate : Bool
  destination : Destination
  deriving DecidableEq, Repr

/-- A command with its arguments. -/
inductive Task
  | convert (request : ConvertRequest)
  | wrap (raml typeName : String) (file : Option String)
  | fix (schema : String) (destination : Destination)
  | migrate (schema draft : String) (destination : Destination)
  | validate (schema : String) (json : Bool)
  deriving DecidableEq, Repr

/-- What arguments ask for. -/
inductive Request
  | run (task : Task)
  | help
  | version
  | misuse
  deriving DecidableEq, Repr

/-- The names of the commands. -/
inductive CommandName
  | convert
  | wrap
  | fix
  | migrate
  | validate
  deriving DecidableEq, Repr

namespace CommandName

def text : CommandName → String
  | convert => "convert"
  | wrap => "wrap"
  | fix => "fix"
  | migrate => "migrate"
  | validate => "validate"

def all : List CommandName :=
  [convert, wrap, fix, migrate, validate]

def ofText? (s : String) : Option CommandName :=
  all.find? (·.text = s)

def draftOption : OptionRule :=
  ⟨"draft", some 'd', .text⟩

def outputOption : OptionRule :=
  ⟨"output", none, .path⟩

def prettyOption : OptionRule :=
  ⟨"pretty", none, .flag⟩

/-- What a command takes. A file has a name, and the name of a type may be empty. -/
def rules : CommandName → ArgumentRules
  | convert =>
    ⟨[draftOption, ⟨"parser", none, .text⟩, ⟨"parser-arg", none, .anyText⟩,
      ⟨"no-validate", none, .flag⟩, outputOption, prettyOption], [false, true]⟩
  | wrap => ⟨[outputOption], [false, true]⟩
  | fix => ⟨[outputOption, prettyOption], [false]⟩
  | migrate => ⟨[draftOption, outputOption, prettyOption], [false]⟩
  | validate => ⟨[⟨"json", none, .flag⟩], [false]⟩

end CommandName

def destination (g : Given) : Destination :=
  ⟨g.value? "output", g.has "pretty"⟩

/-- The task that a command and its arguments make, if nothing is missing. The program for a
conversion may be given by the environment. -/
def taskOf (environmentParser : Option String) (g : Given) : CommandName → Option Task
  | .convert =>
    match g.arguments.reverse, (g.value? "parser").or environmentParser with
    | [raml, typeName], some program =>
      some (.convert
        { raml, typeName, draft := (g.value? "draft").getD "04", program,
          programArguments := g.values "parser-arg", validate := !g.has "no-validate",
          destination := destination g })
    | _, _ => none
  | .wrap =>
    match g.arguments.reverse with
    | [raml, typeName] => some (.wrap raml typeName (g.value? "output"))
    | _ => none
  | .fix =>
    match g.arguments.reverse with
    | [schema] => some (.fix schema (destination g))
    | _ => none
  | .migrate =>
    match g.arguments.reverse, g.value? "draft" with
    | [schema], some draft => some (.migrate schema draft (destination g))
    | _, _ => none
  | .validate =>
    match g.arguments.reverse with
    | [schema] => some (.validate schema (g.has "json"))
    | _ => none

def requestOf (environmentParser : Option String) (command : CommandName)
    (arguments : List String) : Request :=
  match command.rules.read arguments with
  | .error .help => .help
  | .error .misuse => .misuse
  | .ok g =>
    match taskOf environmentParser g command with
    | some task => .run task
    | none => .misuse

/-- Help on the commands named, of which there is at most one; help itself is one of them. -/
def helpRequest : List String → Request
  | [] => .help
  | [topic] => if (CommandName.ofText? topic).isSome || topic = "help" then .help else .misuse
  | _ => .misuse

def readRequest (environmentParser : Option String) : List String → Request
  | [] => .misuse
  | first :: rest =>
    match first.toList with
    | '-' :: '-' :: name =>
      if name = "help".toList then .help
      else if name = "version".toList then .version
      else .misuse
    | '-' :: 'h' :: _ => .help
    | '-' :: 'V' :: _ => .version
    | _ =>
      if first = "help" then helpRequest rest
      else match CommandName.ofText? first with
        | some command => requestOf environmentParser command rest
        | none => .misuse

end RamlSchema.CommandLine
