import RamlSchema.Json.Basic

/-!
# Rules for objects throughout a tree

A rule says which objects it changes and how. It is applied from the leaves up: the values inside an
object are fixed first, and the rule looks at the result. Whether anything was changed is part of
the answer, so that a tree in which no object calls for the rule is known to be untouched without
comparing it.
-/

namespace RamlSchema

/-- Which objects are changed, and into what. -/
structure Rule where
  applies : Members → Bool
  apply : Members → Members

namespace Rule

/-- The rule at one object whose members have been fixed: nothing if it does not apply. -/
def atNode? (r : Rule) (ms : Members) : Option Members :=
  if r.applies ms then some (r.apply ms) else none

/-- Two results of which each is nothing where its part is unchanged. -/
def both? {α β γ : Type} (combine : α → β → γ) (a : α) (b : β) : Option α → Option β → Option γ
  | none, none => none
  | a', b' => some (combine (a'.getD a) (b'.getD b))

mutual

/-- The fixed tree, or nothing if no object was changed. -/
def fix? (r : Rule) : Json → Option Json
  | .object ms =>
    match fixMembers? r ms with
    | none => (r.atNode? ms).map .object
    | some ms' => some (.object ((r.atNode? ms').getD ms'))
  | .array items => (fixItems? r items).map .array
  | .null => none
  | .boolean _ => none
  | .number _ => none
  | .string _ => none
termination_by structural v => v

/-- The fixed items, or nothing if no object in them was changed. -/
def fixItems? (r : Rule) : List Json → Option (List Json)
  | [] => none
  | v :: rest => both? (· :: ·) v rest (fix? r v) (fixItems? r rest)
termination_by structural vs => vs

/-- The fixed members, or nothing if no object in them was changed. -/
def fixMembers? (r : Rule) : List (String × Json) → Option (List (String × Json))
  | [] => none
  | (k, v) :: rest => both? (fun v rest => (k, v) :: rest) v rest (fix? r v)
      (fixMembers? r rest)
termination_by structural ms => ms

end

def fix (r : Rule) (v : Json) : Json :=
  (r.fix? v).getD v

end Rule

end RamlSchema
