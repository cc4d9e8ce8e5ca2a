/-!
# Taking texts apart

Three ways to divide a text in two: behind its first line, behind a given beginning, and at the
first occurrence of a character. Nothing is lost in any of them.
-/

namespace RamlSchema

def firstLine (cs : List Char) : List Char :=
  cs.takeWhile (· != '\n')

/-- The first line feed and everything behind it; empty where the text is a single line. -/
def laterLines (cs : List Char) : List Char :=
  cs.dropWhile (· != '\n')

/-- What follows `start` in a text that begins with it. -/
def afterStart? : List Char → List Char → Option (List Char)
  | [], cs => some cs
  | _ :: _, [] => none
  | s :: start, c :: cs => if s = c then afterStart? start cs else none

/-- The text before the first `c`, and what stands behind it if there is one. -/
def cutAt (c : Char) (cs : List Char) : List Char × Option (List Char) :=
  match cs.dropWhile (· != c) with
  | [] => (cs, none)
  | _ :: rest => (cs.takeWhile (· != c), some rest)

theorem firstLine_append_laterLines (cs : List Char) : firstLine cs ++ laterLines cs = cs :=
  List.takeWhile_append_dropWhile

theorem afterStart?_eq_some_iff {start cs rest : List Char} :
    afterStart? start cs = some rest ↔ cs = start ++ rest := by
  induction start generalizing cs with
  | nil => simp [afterStart?]
  | cons s start ih =>
    cases cs with
    | nil => simp [afterStart?]
    | cons c cs =>
      by_cases h : s = c
      · simp [afterStart?, h, ih]
      · simp [afterStart?, h, Ne.symm h]

end RamlSchema
