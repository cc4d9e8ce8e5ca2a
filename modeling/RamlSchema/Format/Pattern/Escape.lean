import RamlSchema.Format.Pattern.Scan

/-!
# Escapes

What may stand behind a backslash, inside a class or outside: a character that has a meaning of its
own otherwise, a character by its code, a set of characters, or an assertion.
-/

namespace RamlSchema.Pattern

open Ascii

/-- What an escape or a plain character is. -/
inductive Atom
  /-- One character; `bell` tells that it was written as the escape of the bell. -/
  | char (c : Char) (bell : Bool)
  /-- A set of characters; `nesting` tells how deep the class is nested that it stands for. -/
  | set (nesting : Nat)
  /-- An assertion, or the dot. -/
  | other
  deriving DecidableEq, Repr

/-- Characters with a meaning of their own. -/
def isMeta (c : Char) : Bool :=
  "\\.+*?()|[]\x7b\x7d^$#&-~".toList.contains c

/-- Characters that stand for themselves behind a backslash: those with a meaning of their own, and
of ASCII what is no letter, no digit and no angle bracket. -/
def isEscapable (c : Char) : Bool :=
  isMeta c || (c.toNat < 0x80 && !isDigit c && !isLetter c && c != '<' && c != '>')

/-- Takes exactly so many hexadecimal digits. -/
def takeHex (spaced : Bool) : Nat → Nat → List Char → Scan Nat
  | 0, n, rest => .ok (n, rest)
  | _ + 1, _, [] => .error .malformed
  | more + 1, n, c :: rest =>
    match hexValue? c with
    | some d => takeHex spaced more (n * 16 + d) (skip spaced rest)
    | none => .error .malformed

/-- Takes hexadecimal digits up to a closing brace; there must be one at least. -/
def takeBracedHex (spaced : Bool) : Nat → Option Nat → List Char → Scan Nat
  | 0, _, _ => .error .malformed
  | _ + 1, _, [] => .error .malformed
  | fuel + 1, n, c :: rest =>
    if c = '}' then
      match n with
      | some n => .ok (n, skip spaced rest)
      | none => .error .malformed
    else match hexValue? c with
      | some d => takeBracedHex spaced fuel (some (n.getD 0 * 16 + d)) (skip spaced rest)
      | none => .error .malformed

/-- A character by its code: in braces, or with so many digits. -/
def codeEscape (spaced : Bool) (digits : Nat) (rest : List Char) : Scan Atom :=
  let code : Scan Nat :=
    match skip spaced rest with
    | [] => .error .malformed
    | c :: more =>
      if c = '{' then takeBracedHex spaced more.length none (skip spaced more)
      else takeHex spaced digits 0 (c :: more)
  code.andThen fun n rest =>
    if isCharCode n then .ok (.char (Char.ofNat n) false, rest) else .error .malformed

/-- Skips to behind a closing brace. -/
def skipBraced (spaced : Bool) : Nat → List Char → Scan Unit
  | 0, _ => .error .malformed
  | _ + 1, [] => .error .malformed
  | fuel + 1, c :: rest =>
    if c = '}' then .ok ((), rest) else skipBraced spaced fuel (skip spaced rest)

/-- A property of characters: one letter, or a name in braces. The name itself is not looked up. -/
def propertyEscape (spaced : Bool) (rest : List Char) : Scan Atom :=
  match skip spaced rest with
  | [] => .error .malformed
  | c :: more =>
    if c = '{' then
      (skipBraced spaced more.length (skip spaced more)).andThen fun _ rest => .ok (.set 0, rest)
    else if c = '\\' then .error .malformed
    else .ok (.set 0, skip spaced more)

def isBoundaryChar (c : Char) : Bool :=
  isLetter c || c == '-'

def takeBoundary (spaced : Bool) : Nat → List Char → List Char × List Char
  | 0, cs => ([], cs)
  | _ + 1, [] => ([], [])
  | fuel + 1, c :: rest =>
    if isBoundaryChar c then
      let (name, rest) := takeBoundary spaced fuel (skip spaced rest)
      (c :: name, rest)
    else ([], c :: rest)

def boundaryNames : List (List Char) :=
  ["start", "end", "start-half", "end-half"].map String.toList

/-- What may follow a word boundary: the name of a special one in braces. Braces with anything but a
letter or hyphen in front are left for a repetition. -/
def boundaryEscape (spaced : Bool) (rest : List Char) : Scan Atom :=
  match rest with
  | '{' :: more =>
    match skip spaced more with
    | [] => .error .malformed
    | c :: inside =>
      if isBoundaryChar c then
        match takeBoundary spaced (inside.length + 1) (c :: inside) with
        | (name, '}' :: rest) =>
          if boundaryNames.contains name then .ok (.other, rest) else .error .malformed
        | _ => .error .malformed
      else .ok (.other, rest)
  | rest => .ok (.other, rest)

/-- How deep the bracketed class is nested that a letter stands for. Digits are a class of one
range. The characters of words are a class of several items, and so is white space; but where blanks
are skipped, only one character of white space is left in its class. -/
def setNesting? (spaced : Bool) (c : Char) : Option Nat :=
  if c = 'd' || c = 'D' then some 1
  else if c = 'w' || c = 'W' then some 2
  else if c = 's' || c = 'S' then some (if spaced then 1 else 2)
  else none

/-- Letters that stand for a control character other than the bell. -/
def controlLetter? (c : Char) : Option Char :=
  if c = 'f' then some '\x0c'
  else if c = 'n' then some '\n'
  else if c = 'r' then some '\r'
  else if c = 't' then some '\t'
  else if c = 'v' then some '\x0b'
  else none

def escape (spaced : Bool) : List Char → Scan Atom
  | [] => .error .malformed
  | c :: rest =>
    if isDigit c then .error .beyond
    else if c = 'x' then codeEscape spaced 2 rest
    else if c = 'u' then codeEscape spaced 4 rest
    else if c = 'U' then codeEscape spaced 8 rest
    else if c = 'p' || c = 'P' then propertyEscape spaced rest
    else if let some n := setNesting? spaced c then .ok (.set n, rest)
    else if isEscapable c then .ok (.char c false, rest)
    else if c = 'a' then .ok (.char '\x07' true, rest)
    else if c = 'b' then boundaryEscape spaced rest
    else if c = 'A' || c = 'z' || c = 'B' || c = '<' || c = '>' then .ok (.other, rest)
    else if c = 'c' then .error (.control rest)
    else match controlLetter? c with
      | some d => .ok (.char d false, rest)
      | none => .error .malformed

end RamlSchema.Pattern
