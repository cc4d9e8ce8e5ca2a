/-!
# Faults of a JSON text

A fault is kept by its cause and by how many octets of the text lie behind the place it is reported
at, because a reader that walks a list of octets knows how much is left and not how much it has
seen. The line and column come from the whole text in the end: lines end at line feeds, and a column
counts the octets since the last one.
-/

namespace RamlSchema

/-- Why a text is not JSON. -/
inductive FaultCause
  | endOfValue
  | endOfList
  | endOfObject
  | endOfString
  | expectedValue
  | expectedWord
  | expectedColon
  | expectedListEnd
  | expectedObjectEnd
  | nameNotString
  | trailingComma
  | trailingCharacters
  | invalidNumber
  | numberOutOfRange
  | controlCharacter
  | invalidEscape
  | unpairedSurrogate
  | unfinishedPair
  | notUtf8
  | tooDeep
  deriving DecidableEq, Repr

def FaultCause.text : FaultCause → String
  | endOfValue => "EOF while parsing a value"
  | endOfList => "EOF while parsing a list"
  | endOfObject => "EOF while parsing an object"
  | endOfString => "EOF while parsing a string"
  | expectedValue => "expected value"
  | expectedWord => "expected ident"
  | expectedColon => "expected `:`"
  | expectedListEnd => "expected `,` or `]`"
  | expectedObjectEnd => "expected `,` or `\x7d`"
  | nameNotString => "key must be a string"
  | trailingComma => "trailing comma"
  | trailingCharacters => "trailing characters"
  | invalidNumber => "invalid number"
  | numberOutOfRange => "number out of range"
  | controlCharacter =>
    "control character (\\u0000-\\u001F) found while parsing a string"
  | invalidEscape => "invalid escape"
  | unpairedSurrogate => "lone leading surrogate in hex escape"
  | unfinishedPair => "unexpected end of hex escape"
  | notUtf8 => "invalid unicode code point"
  | tooDeep => "recursion limit exceeded"

/-- A cause and the number of octets behind the reported place. -/
structure Fault where
  cause : FaultCause
  left : Nat
  deriving DecidableEq, Repr

namespace Fault

/-- A fault right behind the last octet that was read, where `rest` is what was not read. -/
def behind (cause : FaultCause) (rest : List UInt8) : Fault :=
  ⟨cause, rest.length⟩

/-- A fault on the next octet, or at the end of the text where there is none. -/
def upon (cause : FaultCause) (rest : List UInt8) : Fault :=
  ⟨cause, rest.length - 1⟩

end Fault

/-- What a step of reading gives: a value and the octets that are left. -/
abbrev Read (α : Type) :=
  Except Fault (α × List UInt8)

/-- Goes on with what is left, unless there was a fault. -/
def Read.andThen {α β : Type} (step : Read α) (next : α → List UInt8 → Read β) : Read β :=
  match step with
  | .ok (a, rest) => next a rest
  | .error fault => .error fault

def Read.map {α β : Type} (f : α → β) (step : Read α) : Read β :=
  step.andThen fun a rest => .ok (f a, rest)

/-- A fault with its place in the text. -/
structure ReadError where
  cause : FaultCause
  line : Nat
  column : Nat
  deriving DecidableEq, Repr

namespace ReadError

def lineFeed : UInt8 :=
  10

/-- The place of a fault: the line is one more than the line feeds in front of it, the column the
number of octets since the last of them. -/
def locate (text : List UInt8) (fault : Fault) : ReadError :=
  let before := text.take (text.length - fault.left)
  { cause := fault.cause, line := before.count lineFeed + 1,
    column := (before.reverse.takeWhile (· != lineFeed)).length }

/-- The words of the cause with the place behind them. -/
def message (e : ReadError) : String :=
  e.cause.text ++ " at line " ++ toString e.line ++ " column " ++ toString e.column

end ReadError

end RamlSchema
