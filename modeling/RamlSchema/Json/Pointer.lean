import RamlSchema.Json.Basic

/-!
# Places in a value

A place is given by the steps that lead to it from the root. Its JSON Pointer writes a slash before
each step and escapes the slashes and tildes inside one; the dotted path that a reader of messages
sees is made from the pointer.
-/

namespace RamlSchema

/-- One step into a value. -/
inductive Step
  | name (key : String)
  | index (i : Nat)
  deriving DecidableEq, Repr

namespace Step

/-- The text of a step: the name, or the index in decimal. -/
def text : Step → List Char
  | name k => k.toList
  | index i => Nat.toDigits 10 i

def follow? : Step → Json → Option Json
  | name k, .object ms => Members.find? k ms
  | index i, .array items => items[i]?
  | _, _ => none

end Step

/-- The value that some steps, the first one first, lead to. -/
def Json.at? : List Step → Json → Option Json
  | [], v => some v
  | s :: steps, v => (s.follow? v).bind (Json.at? steps)

namespace Pointer

/-- A step inside a pointer: `~0` for a tilde and `~1` for a slash. -/
def escape (cs : List Char) : List Char :=
  cs.flatMap fun c => if c = '~' then ['~', '0'] else if c = '/' then ['~', '1'] else [c]

def ofSegments (segments : List (List Char)) : List Char :=
  segments.flatMap fun s => '/' :: escape s

/-- Replaces every tilde with `digit` behind it by `c`. -/
def replaceEscape (digit c : Char) : List Char → List Char
  | [] => []
  | [a] => [a]
  | a :: b :: rest =>
    if a = '~' && b = digit then c :: replaceEscape digit c rest
    else a :: replaceEscape digit c (b :: rest)

/-- A segment without escapes: slashes first, so that a tilde that comes out of `~0` is not taken
for the start of another escape. -/
def unescape (cs : List Char) : List Char :=
  replaceEscape '0' '~' (replaceEscape '1' '/' cs)

/-- The dotted path of a pointer: `data`, and a dot before each segment. -/
def dataPath (pointer : List Char) : List Char :=
  "data".toList ++ (pointer.splitOn '/').tail.flatMap fun s => '.' :: unescape s

end Pointer

end RamlSchema
