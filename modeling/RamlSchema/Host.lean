/-!
# The host

What the program asks of the system it runs on, as a record of operations in any monad. Everything
that is decided on the answers is decided elsewhere; a host only answers.
-/

namespace RamlSchema

/-- Why the system refuses something. -/
inductive HostError
  | notFound
  | permissionDenied
  | notADirectory
  | isADirectory
  | other (words : String)
  deriving DecidableEq, Repr

/-- The words of the system, with its number for the error. -/
def HostError.message : HostError → String
  | notFound => "No such file or directory (os error 2)"
  | permissionDenied => "Permission denied (os error 13)"
  | notADirectory => "Not a directory (os error 20)"
  | isADirectory => "Is a directory (os error 21)"
  | other words => words

/-- How a program came to its end. -/
inductive ExitStatus
  | exited (code : Nat)
  | signalled (number : Nat)
  deriving DecidableEq, Repr

namespace ExitStatus

/-- The names of the signals, from the first one on. -/
def signalNames : List String :=
  ["SIGHUP", "SIGINT", "SIGQUIT", "SIGILL", "SIGTRAP", "SIGABRT", "SIGBUS", "SIGFPE", "SIGKILL",
    "SIGUSR1", "SIGSEGV", "SIGUSR2", "SIGPIPE", "SIGALRM", "SIGTERM", "SIGSTKFLT", "SIGCHLD",
    "SIGCONT", "SIGSTOP", "SIGTSTP", "SIGTTIN", "SIGTTOU", "SIGURG", "SIGXCPU", "SIGXFSZ",
    "SIGVTALRM", "SIGPROF", "SIGWINCH", "SIGIO", "SIGPWR", "SIGSYS"]

def isSuccess (s : ExitStatus) : Bool :=
  s = exited 0

/-- The words for a status. A signal is named if it has a name. -/
def text : ExitStatus → String
  | exited code => "exit status: " ++ toString code
  | signalled n =>
    "signal: " ++ toString n ++
      match signalNames[n - 1]? with
      | some name => " (" ++ name ++ ")"
      | none => ""

end ExitStatus

/-- What is left of a program that has ended. -/
structure Finished where
  status : ExitStatus
  output : List UInt8
  errors : List UInt8
  deriving DecidableEq, Repr

/-- A document that could not be put where it should lie. -/
structure Misplaced where
  cause : HostError
  path : String
  deriving DecidableEq, Repr

/-- The operations of a system. -/
structure Host (m : Type → Type) where
  /-- Whether there is a file or directory under a path. -/
  isPresent : String → m Bool
  /-- The octets of a file. -/
  fileContent : String → m (Except HostError (List UInt8))
  /-- Puts a text into a file, new or not. -/
  writeFile : String → String → m (Except HostError Unit)
  /-- Puts a text into a new file under a name of its own, in a directory or where such files lie by
  default, and gives its path. -/
  createDocument : Option String → String → m (Except Misplaced String)
  /-- Removes a file, if it is still there. -/
  removeDocument : String → m Unit
  /-- Runs a program with arguments to its end, with nothing to read. -/
  runProgram : String → List String → m (Except HostError Finished)

end RamlSchema
