import RamlSchema.Text.Ascii
import RamlSchema.Text.Blank
import RamlSchema.Text.Split

/-!
# Scanning a pattern

How a pattern is walked: what stops the walk, and the blanks and comments that are skipped where the
pattern has asked for that.
-/

namespace RamlSchema.Pattern

/-- What ends the reading of a pattern before its end. -/
inductive Stop
  /-- The text is no pattern. -/
  | malformed
  /-- A look-around or a back-reference: what follows is not judged. -/
  | beyond
  /-- A control escape; what stands behind its letter `c`. -/
  | control (rest : List Char)
  deriving DecidableEq, Repr

/-- What a step of reading gives: a value and the characters that are left. -/
abbrev Scan (α : Type) :=
  Except Stop (α × List Char)

/-- Goes on with what is left, unless the walk has stopped. -/
def Scan.andThen {α β : Type} (step : Scan α) (next : α → List Char → Scan β) : Scan β :=
  match step with
  | .ok (a, rest) => next a rest
  | .error stop => .error stop

/-- Skips blanks, and comments from `#` to the end of a line. -/
def skipBlanks : (inComment : Bool) → List Char → List Char
  | _, [] => []
  | true, c :: rest => skipBlanks (c != '\n') rest
  | false, c :: rest =>
    if isBlank c then skipBlanks false rest
    else if c == '#' then skipBlanks true rest
    else c :: rest

/-- Skips blanks and comments if the pattern is `spaced`. -/
def skip (spaced : Bool) (cs : List Char) : List Char :=
  if spaced then skipBlanks false cs else cs

/-- The next character behind blanks and the start of one comment. -/
def peekBehind : (inComment : Bool) → List Char → Option Char
  | _, [] => none
  | inComment, c :: rest =>
    if isBlank c then peekBehind inComment rest
    else if !inComment && c == '#' then peekBehind true rest
    else some c

/-- The character that follows, as far as it decides whether a hyphen is one. -/
def peek (spaced : Bool) (cs : List Char) : Option Char :=
  if spaced then (peekBehind false cs).or cs.head? else cs.head?

/-- A number that denotes a character: not a surrogate and not too large. -/
def isCharCode (n : Nat) : Bool :=
  n < 0xD800 || (0xDFFF < n && n ≤ 0x10FFFF)

end RamlSchema.Pattern
