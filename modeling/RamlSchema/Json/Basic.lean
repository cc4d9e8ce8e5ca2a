import RamlSchema.Number.Basic

/-!
# JSON values

An object keeps its members in the order in which they were written, and a text never yields two
members of one name: `HasDistinctNames` says so of a whole tree. Members are changed in place: a new
value takes the position of the old one, and only a new name goes to the end.
-/

namespace RamlSchema

/-- A JSON value. -/
inductive Json
  | null
  | boolean (value : Bool)
  | number (value : Number)
  | string (value : String)
  | array (items : List Json)
  | object (members : List (String × Json))
  deriving Repr, Inhabited

/-- The members of an object, in order. -/
abbrev Members :=
  List (String × Json)

namespace Members

def find? (name : String) : Members → Option Json
  | [] => none
  | (k, v) :: rest => if k = name then some v else find? name rest

def has (name : String) (ms : Members) : Bool :=
  (ms.find? name).isSome

/-- Sets a value: in place where the name is there, at the end where it is not. -/
def put (name : String) (value : Json) : Members → Members
  | [] => [(name, value)]
  | (k, v) :: rest => if k = name then (k, value) :: rest else (k, v) :: put name value rest

def remove (name : String) : Members → Members
  | [] => []
  | (k, v) :: rest => if k = name then rest else (k, v) :: remove name rest

/-- Gives a member another name and value in place. -/
def replace (name newName : String) (newValue : Json) : Members → Members
  | [] => []
  | (k, v) :: rest =>
    if k = name then (newName, newValue) :: rest else (k, v) :: replace name newName newValue rest

/-- The members that result from writing these pairs one after the other: a name stands where it
came first and has the value that came last. -/
def ofPairs (pairs : List (String × Json)) : Members :=
  pairs.foldl (fun ms (k, v) => put k v ms) []

def names (ms : Members) : List String :=
  ms.map (·.1)

end Members

namespace Json

def typeName : Json → String
  | null => "null"
  | boolean _ => "boolean"
  | number _ => "number"
  | string _ => "string"
  | array _ => "array"
  | object _ => "object"

/-- The member of an object under a name; nothing for any other kind of value. -/
def member? (name : String) : Json → Option Json
  | object ms => Members.find? name ms
  | _ => none

def isObject : Json → Bool
  | object _ => true
  | _ => false

mutual

/-- How many arrays and objects are nested in each other; zero for a scalar. -/
def depth : Json → Nat
  | array items => depthItems items + 1
  | object ms => depthMembers ms + 1
  | null => 0
  | boolean _ => 0
  | number _ => 0
  | string _ => 0
termination_by structural v => v

def depthItems : List Json → Nat
  | [] => 0
  | v :: rest => max (depth v) (depthItems rest)
termination_by structural vs => vs

def depthMembers : List (String × Json) → Nat
  | [] => 0
  | (_, v) :: rest => max (depth v) (depthMembers rest)
termination_by structural ms => ms

end

mutual

/-- No object of the tree has two members of one name. -/
def HasDistinctNames : Json → Prop
  | array items => ItemsHaveDistinctNames items
  | object ms => (ms.map (·.1)).Nodup ∧ MembersHaveDistinctNames ms
  | null => True
  | boolean _ => True
  | number _ => True
  | string _ => True
termination_by structural v => v

/-- `HasDistinctNames` for every item. -/
def ItemsHaveDistinctNames : List Json → Prop
  | [] => True
  | v :: rest => HasDistinctNames v ∧ ItemsHaveDistinctNames rest
termination_by structural vs => vs

/-- `HasDistinctNames` for every member's value. -/
def MembersHaveDistinctNames : List (String × Json) → Prop
  | [] => True
  | (_, v) :: rest => HasDistinctNames v ∧ MembersHaveDistinctNames rest
termination_by structural ms => ms

end

mutual

/-- Equality of values is decided by walking both trees. -/
def decideEq : (v w : Json) → Decidable (v = w)
  | null, null => isTrue rfl
  | boolean a, boolean b =>
    if h : a = b then isTrue (by rw [h]) else isFalse (by simp [h])
  | number a, number b =>
    if h : a = b then isTrue (by rw [h]) else isFalse (by simp [h])
  | string a, string b =>
    if h : a = b then isTrue (by rw [h]) else isFalse (by simp [h])
  | array a, array b =>
    match decideEqItems a b with
    | isTrue h => isTrue (by rw [h])
    | isFalse h => isFalse (by simp [h])
  | object a, object b =>
    match decideEqMembers a b with
    | isTrue h => isTrue (by rw [h])
    | isFalse h => isFalse (by simp [h])
  | null, boolean _ | null, number _ | null, string _ | null, array _ | null, object _
  | boolean _, null | boolean _, number _ | boolean _, string _ | boolean _, array _
  | boolean _, object _
  | number _, null | number _, boolean _ | number _, string _ | number _, array _
  | number _, object _
  | string _, null | string _, boolean _ | string _, number _ | string _, array _
  | string _, object _
  | array _, null | array _, boolean _ | array _, number _ | array _, string _
  | array _, object _
  | object _, null | object _, boolean _ | object _, number _ | object _, string _
  | object _, array _ => isFalse nofun

def decideEqItems : (vs ws : List Json) → Decidable (vs = ws)
  | [], [] => isTrue rfl
  | v :: vs, w :: ws =>
    match decideEq v w, decideEqItems vs ws with
    | isTrue h, isTrue hs => isTrue (by rw [h, hs])
    | isFalse h, _ => isFalse (by simp [h])
    | _, isFalse hs => isFalse (by simp [hs])
  | [], _ :: _ | _ :: _, [] => isFalse nofun

def decideEqMembers : (ms ns : List (String × Json)) → Decidable (ms = ns)
  | [], [] => isTrue rfl
  | (k, v) :: ms, (l, w) :: ns =>
    if hk : k = l then
      match decideEq v w, decideEqMembers ms ns with
      | isTrue h, isTrue hs => isTrue (by rw [hk, h, hs])
      | isFalse h, _ => isFalse (by simp [h])
      | _, isFalse hs => isFalse (by simp [hs])
    else isFalse (by simp [hk])
  | [], _ :: _ | _ :: _, [] => isFalse nofun

end

instance : DecidableEq Json :=
  decideEq

end Json

end RamlSchema
