import RamlSchema.Format.Pattern.Bracket
import RamlSchema.Format.Pattern.Group

/-!
# Patterns

Recognises regular expressions. A pattern is read from left to right with a stack of open groups; of
what has been read only that much is kept which later characters depend on: whether a repetition may
follow, and how deep the whole is nested. A look-around or a back-reference ends the reading with
success, since nothing behind it is judged. A control escape is replaced by its character, and the
pattern is read anew.
-/

namespace RamlSchema.Pattern

open Ascii

/-- A part of a sequence: whether it may be repeated, and how deep it is nested. -/
structure Piece where
  repeatable : Bool
  nesting : Nat
  deriving DecidableEq, Repr

/-- A group being read: the current sequence, last piece first, and the nesting of the alternatives
before it. -/
structure Level where
  pieces : List Piece
  alternatives : List Nat
  deriving DecidableEq, Repr

namespace Level

def empty : Level :=
  ⟨[], []⟩

def push (l : Level) (p : Piece) : Level :=
  { l with pieces := p :: l.pieces }

def sequenceNesting (l : Level) : Nat :=
  joined (l.pieces.map Piece.nesting)

/-- The sequence becomes an alternative, and another one begins. -/
def alternate (l : Level) : Level :=
  ⟨[], l.sequenceNesting :: l.alternatives⟩

def nesting (l : Level) : Nat :=
  joined (l.sequenceNesting :: l.alternatives)

end Level

/-- What has been read: whether blanks are skipped, the current group, those around it with their
flag for blanks, the names of groups, and whether a bell was written as an escape. -/
structure State where
  spaced : Bool
  level : Level
  outer : List (Level × Bool)
  names : List (List Char)
  bell : Bool
  deriving DecidableEq, Repr

namespace State

def start : State :=
  ⟨false, .empty, [], [], false⟩

def push (s : State) (p : Piece) : State :=
  { s with level := s.level.push p }

/-- Enters a group or takes over flags. No two groups have one name. -/
def enter (s : State) : Opening → Option State
  | .flags spaced =>
    some { s.push ⟨false, 0⟩ with spaced := spaced.getD s.spaced }
  | .group spaced name =>
    let names := name.toList ++ s.names
    if names.Nodup then
      some { s with spaced := spaced.getD s.spaced, level := .empty,
                    outer := (s.level, s.spaced) :: s.outer, names }
    else none

/-- Leaves the current group, which becomes a piece of the one around it. -/
def leave (s : State) : Option State :=
  match s.outer with
  | [] => none
  | (around, spaced) :: outer =>
    some { s with spaced, outer, level := around.push ⟨true, s.level.nesting + 1⟩ }

def repeatLast (s : State) : Option State :=
  match s.level.pieces with
  | [] => none
  | p :: pieces =>
    if p.repeatable then
      some { s with level := { s.level with pieces := ⟨true, p.nesting + 1⟩ :: pieces } }
    else none

def nestingLimit : Nat :=
  250

/-- Whether this is the end of a pattern: all groups are closed, the nesting is not too deep, and
there was no escape of the bell. -/
def isFinal (s : State) : Bool :=
  s.outer.isEmpty && s.level.nesting ≤ nestingLimit && !s.bell

end State

/-- Takes a question mark, which makes a repetition reluctant. -/
def afterReluctant (cs : List Char) : List Char :=
  (afterStart? ['?'] cs).getD cs

/-- Takes decimal digits, between which blanks may be skipped. -/
def takeDigits (spaced : Bool) : Nat → Option Nat → List Char → Option Nat × List Char
  | 0, n, cs => (n, cs)
  | _ + 1, n, [] => (n, [])
  | fuel + 1, n, c :: rest =>
    if isDigit c then
      takeDigits spaced fuel (some (n.getD 0 * 10 + (c.toNat - 0x30))) (skip spaced rest)
    else (n, c :: rest)

/-- Skips blanks behind a number, and comments where they are skipped. -/
def afterNumber (spaced : Bool) (cs : List Char) : List Char :=
  if spaced then skipBlanks false cs else cs.dropWhile isBlank

/-- Reads a count, with blanks around it in any pattern. It is nothing where there is no digit, and
a count must fit 32 bits. -/
def count (spaced : Bool) (cs : List Char) : Scan (Option Nat) :=
  match takeDigits spaced cs.length none (cs.dropWhile isBlank) with
  | (some n, rest) =>
    if n < 0x100000000 then .ok (some n, afterNumber spaced rest) else .error .malformed
  | (none, rest) => .ok (none, rest)

/-- Reads a counted repetition whose opening brace has been taken: a count, a count and a comma, or
two counts in order. -/
def countedRepetition (spaced : Bool) (rest : List Char) : Scan Unit :=
  let close (rest : List Char) : Scan Unit :=
    match rest with
    | '}' :: rest => .ok ((), afterReluctant (skip spaced rest))
    | _ => .error .malformed
  (count spaced (skip spaced rest)).andThen fun least rest =>
    match least with
    | none => .error .malformed
    | some least =>
      match rest with
      | ',' :: rest =>
        match skip spaced rest with
        | '}' :: rest => close ('}' :: rest)
        | rest =>
          (count spaced rest).andThen fun most rest =>
            match most with
            | some most => if least ≤ most then close rest else .error .malformed
            | none => .error .malformed
      | rest => close rest

/-- Reads one character, escape or class that is a piece of its own. -/
def piece (spaced : Bool) (c : Char) (rest : List Char) : Scan (Piece × Bool) :=
  if c = '[' then
    (bracket spaced rest).andThen fun nesting rest => .ok ((⟨true, nesting⟩, false), rest)
  else if c = '\\' then
    (escape spaced rest).andThen fun atom rest =>
      match atom with
      | .char _ bell => .ok ((⟨true, 0⟩, bell), rest)
      | .set nesting => .ok ((⟨true, nesting⟩, false), rest)
      | .other => .ok ((⟨true, 0⟩, false), rest)
  else .ok ((⟨true, 0⟩, false), rest)

/-- One step at the next character: the new state and what is left. -/
def step (s : State) (c : Char) (rest : List Char) : Scan State :=
  let orMalformed (s : Option State) (rest : List Char) : Scan State :=
    match s with
    | some s => .ok (s, rest)
    | none => .error .malformed
  if c = '(' then (opening s.spaced rest).andThen fun o rest => orMalformed (s.enter o) rest
  else if c = ')' then orMalformed s.leave rest
  else if c = '|' then .ok ({ s with level := s.level.alternate }, rest)
  else if c = '?' || c = '*' || c = '+' then orMalformed s.repeatLast (afterReluctant rest)
  else if c = '{' then
    match s.repeatLast with
    | none => .error .malformed
    | some s' => (countedRepetition s.spaced rest).andThen fun _ rest => .ok (s', rest)
  else
    (piece s.spaced c rest).andThen fun (p, bell) rest =>
      .ok ({ s.push p with bell := s.bell || bell }, rest)

def readFrom : Nat → State → List Char → Except Stop State
  | 0, _, _ => .error .malformed
  | fuel + 1, s, text =>
    match skip s.spaced text with
    | [] => .ok s
    | c :: rest =>
      match step s c rest with
      | .ok (s, rest) => readFrom fuel s rest
      | .error stop => .error stop

/-- Whether a text is a pattern, where control escapes are replaced at most so many times. -/
def accepts : Nat → List Char → Bool
  | 0, _ => false
  | replacements + 1, text =>
    match readFrom (text.length + 1) .start text with
    | .ok s => s.isFinal
    | .error .malformed => false
    | .error .beyond => true
    | .error (.control []) => false
    | .error (.control (c :: rest)) =>
      isLetter c &&
        accepts replacements
          (text.take (text.length - rest.length - 3) ++ Char.ofNat (c.toNat % 32) :: rest)

def isPattern (s : String) : Bool :=
  let text := s.toList
  accepts (text.length + 1) text

end RamlSchema.Pattern
