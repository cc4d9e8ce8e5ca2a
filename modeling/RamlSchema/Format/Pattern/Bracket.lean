import RamlSchema.Format.Pattern.Escape

/-!
# Bracketed classes

A class between brackets holds characters, ranges, named classes and further classes, combined by
union and by three operators that are written doubled. Of what is read only the nesting is kept.
-/

namespace RamlSchema.Pattern

/-- A class being read: the nesting of its items since the last operator, last one first, and that
of what stands before the operator. -/
structure Bracket where
  items : List Nat
  before : Option Nat
  deriving DecidableEq, Repr

def greatest (ns : List Nat) : Nat :=
  ns.foldl max 0

/-- The nesting of what is made of several parts; a single part is not nested further. -/
def joined : List Nat → Nat
  | [] => 0
  | [n] => n
  | ns => greatest ns + 1

namespace Bracket

def nesting (b : Bracket) : Nat :=
  match b.before with
  | none => joined b.items
  | some n => max n (joined b.items) + 1

def push (b : Bracket) (n : Nat) : Bracket :=
  { b with items := n :: b.items }

/-- Everything so far becomes the left side of an operator. -/
def operator (b : Bracket) : Bracket :=
  ⟨[], some b.nesting⟩

end Bracket

def leadingHyphens (spaced : Bool) : Nat → List Char → Scan Nat
  | 0, _ => .error .malformed
  | _ + 1, [] => .error .malformed
  | fuel + 1, c :: rest =>
    if c = '-' then
      (leadingHyphens spaced fuel (skip spaced rest)).andThen fun n rest => .ok (n + 1, rest)
    else .ok (0, c :: rest)

/-- Reads the front of a class whose opening bracket has been taken: a circumflex, hyphens, and,
where neither it nor a hyphen is a character of the class yet, a closing bracket. -/
def openBracket (spaced : Bool) (rest : List Char) : Scan Bracket :=
  let rest := skip spaced rest
  let rest := if rest.head? = some '^' then skip spaced rest.tail else rest
  (leadingHyphens spaced (rest.length + 1) rest).andThen fun hyphens rest =>
    match rest with
    | [] => .error .malformed
    | c :: more =>
      if hyphens = 0 && c = ']' then
        match skip spaced more with
        | [] => .error .malformed
        | more => .ok (⟨[0], none⟩, more)
      else .ok (⟨List.replicate hyphens 0, none⟩, rest)

def classNames : List (List Char) :=
  ["alnum", "alpha", "ascii", "blank", "cntrl", "digit", "graph", "lower", "print", "punct",
    "space", "upper", "word", "xdigit"].map String.toList

/-- What stands behind an ASCII class whose opening bracket has been taken: a colon, perhaps a
circumflex, a name, and a colon and a bracket. -/
def afterNamedClass? (rest : List Char) : Option (List Char) := do
  let rest ← afterStart? [':'] rest
  let rest := (afterStart? ['^'] rest).getD rest
  let name := rest.takeWhile (· != ':')
  let rest ← afterStart? [':', ']'] (rest.dropWhile (· != ':'))
  if classNames.contains name then some rest else none

def classAtom (spaced : Bool) : List Char → Scan Atom
  | [] => .error .malformed
  | c :: rest => if c = '\\' then escape spaced rest else .ok (.char c false, rest)

/-- The nesting of an atom, if it may be an item of a class. -/
def itemOf (atom : Atom) (rest : List Char) : Scan Nat :=
  match atom with
  | .char _ _ => .ok (0, rest)
  | .set n => .ok (n, rest)
  | .other => .error .malformed

/-- Reads one item: a character, a set, or a range of characters whose ends are in order. Gives
its nesting. -/
def classItem (spaced : Bool) (rest : List Char) : Scan Nat :=
  (classAtom spaced rest).andThen fun first rest =>
    match skip spaced rest with
    | [] => .error .malformed
    | c :: more =>
      let next := peek spaced more
      if c != '-' || next == some ']' || next == some '-' then itemOf first (c :: more)
      else
        (classAtom spaced (skip spaced more)).andThen fun last rest =>
          match first, last with
          | .char a _, .char b _ => if a ≤ b then .ok (0, rest) else .error .malformed
          | _, _ => .error .malformed

def operatorNext : List Char → Bool
  | c :: d :: _ => c == d && (c == '&' || c == '-' || c == '~')
  | _ => false

/-- Reads on in a class inside the classes `outer`. Gives the nesting of the outermost one. -/
def readBracket (spaced : Bool) : Nat → Bracket → List Bracket → List Char → Scan Nat
  | 0, _, _, _ => .error .malformed
  | fuel + 1, b, outer, text =>
    match skip spaced text with
    | [] => .error .malformed
    | c :: rest =>
      if c = '[' then
        match afterNamedClass? rest with
        | some rest => readBracket spaced fuel (b.push 0) outer rest
        | none =>
          match openBracket spaced rest with
          | .ok (inner, rest) => readBracket spaced fuel inner (b :: outer) rest
          | .error stop => .error stop
      else if c = ']' then
        match outer with
        | [] => .ok (b.nesting + 1, rest)
        | o :: outer => readBracket spaced fuel (o.push (b.nesting + 1)) outer rest
      else if operatorNext (c :: rest) then
        readBracket spaced fuel b.operator outer (rest.drop 1)
      else
        match classItem spaced (c :: rest) with
        | .ok (n, rest) => readBracket spaced fuel (b.push n) outer rest
        | .error stop => .error stop

/-- Reads a class whose opening bracket has been taken. -/
def bracket (spaced : Bool) (rest : List Char) : Scan Nat :=
  (openBracket spaced rest).andThen fun b more =>
    readBracket spaced (rest.length + 1) b [] more

end RamlSchema.Pattern
