import RamlSchema.Format.Pattern.Scan
import RamlSchema.Text.Letter

/-!
# Groups and flags

What stands behind an opening parenthesis: nothing special, a name, flags for the group, or flags
for what follows.
-/

namespace RamlSchema.Pattern

/-- What an opening parenthesis begins. -/
inductive Opening
  /-- A group, with the flag for blanks if it sets that, and with its name if it has one. -/
  | group (spaced : Option Bool) (name : Option (List Char))
  /-- Flags for what follows. -/
  | flags (spaced : Option Bool)
  deriving DecidableEq, Repr

def flagLetters : List Char :=
  "imsUuRx".toList

/-- The first flag in a list that is `x`: whether it is set or taken back. -/
def spacedFlag : (negated : Bool) → List Char → Option Bool
  | _, [] => none
  | negated, c :: rest =>
    if c = 'x' then some (!negated) else spacedFlag (negated || c = '-') rest

/-- Flags, each at most once, with at most one hyphen, which is not the last. -/
def areFlags (cs : List Char) : Bool :=
  cs.all (fun c => c == '-' || flagLetters.contains c) && cs.Nodup && cs.getLast? != some '-'

def beginsName (c : Char) : Bool :=
  c == '_' || isAlphabetic c

/-- Whether a character may stand in the name of a group. -/
def continuesName (c : Char) : Bool :=
  c == '_' || c == '.' || c == '[' || c == ']' || isAlphabetic c || isNumeric c

def isGroupName : List Char → Bool
  | [] => false
  | c :: rest => beginsName c && rest.all continuesName

/-- Reads a name up to the angle bracket behind it. -/
def groupName (rest : List Char) : Scan Opening :=
  let name := rest.takeWhile (· != '>')
  match rest.dropWhile (· != '>') with
  | [] => .error .malformed
  | _ :: rest => if isGroupName name then .ok (.group none (some name), rest) else .error .malformed

/-- Reads flags and the colon or parenthesis behind them. -/
def groupFlags (rest : List Char) : Scan Opening :=
  let ending (c : Char) := c == ':' || c == ')'
  let flags := rest.takeWhile (!ending ·)
  match rest.dropWhile (!ending ·) with
  | [] => .error .malformed
  | c :: rest =>
    if !areFlags flags then .error .malformed
    else if c = ':' then .ok (.group (spacedFlag false flags) none, rest)
    else if flags.isEmpty then .error .malformed
    else .ok (.flags (spacedFlag false flags), rest)

def lookArounds : List (List Char) :=
  ["?=", "?!", "?<=", "?<!"].map String.toList

def opening (spaced : Bool) (rest : List Char) : Scan Opening :=
  let rest := skip spaced rest
  if lookArounds.any fun l => (afterStart? l rest).isSome then .error .beyond
  else match afterStart? ['?', 'P', '<'] rest, afterStart? ['?', '<'] rest,
      afterStart? ['?'] rest with
    | some rest, _, _ => groupName rest
    | none, some rest, _ => groupName rest
    | none, none, some rest => groupFlags rest
    | none, none, none => .ok (.group none none, rest)

end RamlSchema.Pattern
