import RamlSchema.CommandLine.Program

/-!
# The command line

Runs the program on the files of the machine. It starts no other programs: a conversion gets as far
as the document for its processor and then reports that the processor could not be run.
-/

open RamlSchema

/-- What the program is told for an error of the machine. -/
def hostErrorOf (e : IO.Error) : HostError :=
  match e with
  | .noFileOrDirectory .. => .notFound
  | .permissionDenied .. => .permissionDenied
  | .inappropriateType .. => .isADirectory
  | e => .other (toString e)

def attempt {α : Type} (act : IO α) : IO (Except HostError α) := do
  try return .ok (← act)
  catch e => return .error (hostErrorOf e)

def newDocumentName : IO String := do
  let letters := "ABCDEFGHIJKLMNOPQRSTUVWXYZabcdefghijklmnopqrstuvwxyz0123456789".toList
  let mut chosen : List Char := []
  for _ in [0:6] do
    let i ← IO.rand 0 (letters.length - 1)
    chosen := (letters[i]?.getD 'x') :: chosen
  return "dt2js-" ++ String.ofList chosen ++ ".raml"

def machine : Host IO where
  isPresent path := do
    match ← attempt (IO.FS.Handle.mk path .read) with
    | .error .notFound => return false
    | _ => return true
  fileContent path := do
    return (← attempt (IO.FS.readBinFile path)).map ByteArray.toList
  writeFile path text := attempt (IO.FS.writeFile path text)
  createDocument directory text := do
    let path := directory.getD "/tmp" ++ "/" ++ (← newDocumentName)
    match ← attempt (IO.FS.writeFile path text) with
    | .ok () => return .ok path
    | .error cause => return .error ⟨cause, path⟩
  removeDocument path := do
    let _ ← attempt (IO.FS.removeFile path)
  runProgram _ _ := return .error (.other "Operation not permitted (os error 1)")

/-- Runs the program with the arguments of the command line. -/
def main (arguments : List String) : IO UInt32 := do
  let outcome ← CommandLine.run machine (← IO.getEnv "DT2JS_PARSER") arguments
  IO.print outcome.stdout
  IO.eprint outcome.stderr
  return outcome.code.toUInt32
