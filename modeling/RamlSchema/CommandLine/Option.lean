import RamlSchema.Text.Split

/-!
# Options and arguments

How a list of arguments is taken apart when it is known which options a command has. Arguments are
looked at one after the other, and the first one that is wrong, or that asks for help, ends the
reading: what stands behind it does not matter.
-/

namespace RamlSchema.CommandLine

/-- What an option takes. -/
inductive OptionKind
  /-- No value. -/
  | flag
  /-- Any text that does not look like an option. -/
  | text
  /-- As `text`, but not the empty one. -/
  | path
  /-- Any text whatever; the option may be given any number of times. -/
  | anyText
  deriving DecidableEq, Repr

/-- An option of a command. -/
structure OptionRule where
  long : String
  short : Option Char
  kind : OptionKind
  deriving DecidableEq, Repr

/-- What a command takes: options, and arguments by their place. A place tells whether the empty
text may stand there. -/
structure ArgumentRules where
  options : List OptionRule
  places : List Bool
  deriving Repr

/-- Why the reading of arguments ends early. -/
inductive Early
  | help
  | misuse
  deriving DecidableEq, Repr

/-- What has been read: the options with their values, and the arguments, last ones first. -/
structure Given where
  options : List (String × String)
  arguments : List String
  deriving DecidableEq, Repr

namespace Given

def value? (g : Given) (long : String) : Option String :=
  g.options.lookup long

/-- The values of an option in the order in which they were given. -/
def values (g : Given) (long : String) : List String :=
  (g.options.filter (·.1 == long)).reverse.map (·.2)

def has (g : Given) (long : String) : Bool :=
  (g.value? long).isSome

/-- One more option with its value. Only an option for any text is given twice, and a path is not
empty. -/
def addOption (g : Given) (rule : OptionRule) (value : String) : Except Early Given :=
  if rule.kind != .anyText && g.has rule.long then .error .misuse
  else if rule.kind == .path && value.isEmpty then .error .misuse
  else .ok { g with options := (rule.long, value) :: g.options }

/-- One more argument, if there is a place for it. -/
def addArgument (rules : ArgumentRules) (g : Given) (value : String) : Except Early Given :=
  match rules.places[g.arguments.length]? with
  | none => .error .misuse
  | some mayBeEmpty =>
    if value.isEmpty && !mayBeEmpty then .error .misuse
    else .ok { g with arguments := value :: g.arguments }

end Given

/-- What one argument comes to. -/
inductive Reading
  /-- It is dealt with. -/
  | done (g : Given)
  /-- It is an option whose value is the next argument. -/
  | wants (rule : OptionRule) (g : Given)

/-- An option with the value that is attached to it, if there is one. -/
def readOption (g : Given) (rule : OptionRule) (attached : Option (List Char)) :
    Except Early Reading :=
  match rule.kind, attached with
  | .flag, none => (g.addOption rule "").map .done
  | .flag, some _ => .error .misuse
  | _, some value => (g.addOption rule (String.ofList value)).map .done
  | _, none => .ok (.wants rule g)

/-- An option by its long name, the two hyphens being taken. -/
def readLong (rules : ArgumentRules) (g : Given) (cs : List Char) : Except Early Reading :=
  let (name, attached) := cutAt '=' cs
  if name = "help".toList then .error (if attached.isNone then .help else .misuse)
  else match rules.options.find? (fun rule => rule.long.toList = name) with
    | some rule => readOption g rule attached
    | none => .error .misuse

/-- Options by their letters, the hyphen being taken. What stands behind the letter of an option
with a value is the value, less an equals sign. -/
def readShort (rules : ArgumentRules) (g : Given) : List Char → Except Early Reading
  | [] => .ok (.done g)
  | c :: rest =>
    if c = 'h' then .error .help
    else match rules.options.find? (fun rule => rule.short = some c) with
      | none => .error .misuse
      | some rule =>
        if rule.kind = .flag then
          match g.addOption rule "" with
          | .ok g => readShort rules g rest
          | .error e => .error e
        else match rest with
          | [] => readOption g rule none
          | '=' :: value => readOption g rule (some value)
          | value => readOption g rule (some value)

/-- One argument before any pair of hyphens that stands alone. -/
def readArgument (rules : ArgumentRules) (g : Given) (argument : String) : Except Early Reading :=
  match argument.toList with
  | '-' :: '-' :: cs => readLong rules g cs
  | '-' :: c :: cs => readShort rules g (c :: cs)
  | _ => (g.addArgument rules argument).map .done

/-- Whether an argument looks like an option, so that it is not the value of one. -/
def looksLikeOption (argument : String) : Bool :=
  match argument.toList with
  | '-' :: _ :: _ => true
  | _ => false

/-- Arguments behind a pair of hyphens, all of which stand for themselves. -/
def readRest (rules : ArgumentRules) : List String → Given → Except Early Given
  | [], g => .ok g
  | a :: rest, g =>
    match g.addArgument rules a with
    | .ok g => readRest rules rest g
    | .error e => .error e

/-- Arguments where an option may be waiting for its value. -/
def readArguments (rules : ArgumentRules) :
    Option OptionRule → List String → Given → Except Early Given
  | none, [], g => .ok g
  | some _, [], _ => .error .misuse
  | some rule, a :: rest, g =>
    if rule.kind != .anyText && looksLikeOption a then .error .misuse
    else match g.addOption rule a with
      | .ok g => readArguments rules none rest g
      | .error e => .error e
  | none, a :: rest, g =>
    if a = "--" then readRest rules rest g
    else match readArgument rules g a with
      | .ok (.done g) => readArguments rules none rest g
      | .ok (.wants rule g) => readArguments rules (some rule) rest g
      | .error e => .error e

def ArgumentRules.read (rules : ArgumentRules) (arguments : List String) : Except Early Given :=
  readArguments rules none arguments ⟨[], []⟩

end RamlSchema.CommandLine
