import RamlSchema.Processor.Output
import RamlSchema.Text.Blank
import RamlSchema.Text.Printable

/-!
# Programs as processors

A program is a processor if it takes the path of a document and the name of a type behind its own
arguments, and writes the schema to its standard output. The document lies in a new file in the
directory that inclusions are relative to, and is gone when the program has ended.
-/

namespace RamlSchema

/-- A program and its first arguments. -/
structure Command where
  program : String
  arguments : List String
  deriving DecidableEq, Repr

/-- A character as it stands in a path between quotation marks: behind a backslash where it would be
taken for something else, and by its code where it cannot be shown. -/
def escapePathChar (c : Char) : List Char :=
  if c = '"' then ['\\', '"']
  else if c = '\x27' then ['\\', '\x27']
  else if c = '\\' then ['\\', '\\']
  else if c = '\n' then ['\\', 'n']
  else if c = '\r' then ['\\', 'r']
  else if c = '\t' then ['\\', 't']
  else if c.toNat = 0 then ['\\', '0']
  else if isPrintable c then [c]
  else "\\u\x7b".toList ++ Nat.toDigits 16 c.toNat ++ ['\x7d']

def Misplaced.message (e : Misplaced) : String :=
  e.cause.message ++ " at path \"" ++
    String.ofList (e.path.toList.flatMap escapePathChar) ++ "\""

namespace Command

/-- The schema that a program leaves behind. What it wrote to its standard error is told if it ended
badly. -/
def conclude (c : Command) (finished : Finished) : Except ProcessorError Json :=
  if finished.status.isSuccess then readOutput finished.output
  else
    .error (.failed c.program finished.status.text
      (String.ofList (trim (Utf8.decodeLenient finished.errors))))

def asProcessor {m : Type → Type} [Monad m] (host : Host m) (c : Command) : Processor m :=
  fun document typeName basePath => do
    match ← host.createDocument basePath document with
    | .error misplaced => return .error (.notWritten misplaced.message)
    | .ok path =>
      let result ← host.runProgram c.program (c.arguments ++ [path, typeName])
      host.removeDocument path
      match result with
      | .error e => return .error (.notStarted c.program e.message)
      | .ok finished => return c.conclude finished

end Command

end RamlSchema
