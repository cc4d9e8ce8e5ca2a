import RamlSchema.Draft
import RamlSchema.Proofs.Json.Tree

/-!
# What a schema means

Which values a schema accepts. The schemas under the keywords of a schema are tests on values before
the keyword is looked at, so what a keyword asks is a plain function of what is found under its own
name and the names that it goes with: no order of members enters, and each keyword can be read by
itself.

Draft 04 has flags that make a bound exclusive; in the later drafts an exclusive bound is a number of
its own, and there are constants. All else is read alike in all drafts. What the kinds of values are,
when two values are the same, which names match a pattern and what all other keywords ask is left
open: a `Reading` says so.
-/

namespace RamlSchema.Schema

abbrev Test :=
  Json → Bool

/-- What schemas are read with, whatever the draft. -/
structure Reading where
  /-- Whether a value is of a kind. -/
  isOfKind : String → Test
  /-- Whether two values are the same. -/
  same : Json → Json → Bool
  /-- Whether a pattern matches a name. -/
  matchesName : String → String → Bool
  /-- What the keywords ask that are not read here, all of them together. -/
  further : Members → Test

/-- The value under a keyword, with tests for the schemas in it. -/
inductive Argument
  | data (v : Json)
  | test (accepts : Test)
  | tests (list : List Test)
  | named (table : List (String × Test))

/-! ### The keywords -/

/-- The test under a keyword; what is no test lets all values pass. -/
def testOf : Option Argument → Test
  | some (.test accepts) => accepts
  | _ => fun _ => true

def tableOf : Option Argument → List (String × Test)
  | some (.named table) => table
  | _ => []

def kindHolds (r : Reading) (kinds : Option Argument) : Test := fun v =>
  match kinds with
  | some (.data (.string name)) => r.isOfKind name v
  | some (.data (.array names)) => names.any fun
      | .string name => r.isOfKind name v
      | _ => false
  | _ => true

def choiceHolds (r : Reading) (choice : Option Argument) : Test := fun v =>
  match choice with
  | some (.data (.array allowed)) => allowed.any (r.same · v)
  | _ => true

/-- A constant says nothing in draft 04. -/
def constantHolds (r : Reading) (constant : Option Argument) : Draft → Test
  | .draft04 => fun _ => true
  | .draft06 | .draft07 => fun v =>
    match constant with
    | some (.data allowed) => r.same allowed v
    | _ => true

/-- Whether a number is within a limit; what is no number is, and where there is no limit all are. -/
def keepsTo (within : Number → Number → Bool) (limit : Option Argument) : Test
  | .number x =>
    match limit with
    | some (.data (.number n)) => within x n
    | _ => true
  | _ => true

def isSet : Option Argument → Bool
  | some (.data (.boolean true)) => true
  | _ => false

/-- What a bound and the keyword for its exclusive form ask: in draft 04 that is a flag, in the later
drafts a bound itself. -/
def boundHolds (within strictlyWithin : Number → Number → Bool) (bound exclusive : Option Argument) :
    Draft → Test
  | .draft04 => keepsTo (if isSet exclusive then strictlyWithin else within) bound
  | .draft06 | .draft07 => fun v => keepsTo within bound v && keepsTo strictlyWithin exclusive v

def hasNames (names : List Json) : Test
  | .object ms => names.all fun
      | .string name => Members.has name ms
      | _ => true
  | _ => true

def namesHold (required : Option Argument) : Test :=
  match required with
  | some (.data (.array names)) => hasNames names
  | _ => fun _ => true

/-- The values in an object pass the tests under their names and under the patterns that match these;
where there is none, they pass the test for all other members. -/
def membersHold (r : Reading) (properties patterns additional : Option Argument) : Test
  | .object ms => ms.all fun (name, v) =>
      let own := (tableOf properties).filter (·.1 == name)
      let matching := (tableOf patterns).filter (r.matchesName ·.1 name)
      (own ++ matching).all (·.2 v) && (!(own ++ matching).isEmpty || testOf additional v)
  | _ => true

/-- Every item passes the one test there is, or passes the test at its place; items behind the last
place pass the test for additional ones. -/
def itemsHold (items additional : Option Argument) : Test
  | .array vs =>
    match items with
    | some (.test accepts) => vs.all accepts
    | some (.tests list) =>
      (list.zip vs).all (fun (accepts, v) => accepts v) &&
        (vs.drop list.length).all (testOf additional)
    | _ => true
  | _ => true

/-- An object passes the test under each name that it has. -/
def dependenciesHold (dependencies : Option Argument) : Test
  | .object ms =>
    (tableOf dependencies).all fun (name, accepts) => !Members.has name ms || accepts (.object ms)
  | _ => true

def allHold (list : Option Argument) : Test := fun v =>
  match list with
  | some (.tests list) => list.all (· v)
  | _ => true

def anyHolds (list : Option Argument) : Test := fun v =>
  match list with
  | some (.tests list) => list.any (· v)
  | _ => true

def oneHolds (list : Option Argument) : Test := fun v =>
  match list with
  | some (.tests list) => list.countP (· v) == 1
  | _ => true

def noneHolds (negated : Option Argument) : Test := fun v =>
  match negated with
  | some (.test accepts) => !accepts v
  | _ => true

/-- What all keywords of a schema ask that are read here. -/
def holds (r : Reading) (d : Draft) (under : String → Option Argument) : Test := fun v =>
  kindHolds r (under "type") v &&
  (choiceHolds r (under "enum") v && constantHolds r (under "const") d v) &&
  boundHolds (fun x n => x.toRat ≤ n.toRat) (fun x n => x.toRat < n.toRat)
    (under "maximum") (under "exclusiveMaximum") d v &&
  boundHolds (fun x n => n.toRat ≤ x.toRat) (fun x n => n.toRat < x.toRat)
    (under "minimum") (under "exclusiveMinimum") d v &&
  namesHold (under "required") v &&
  membersHold r (under "properties") (under "patternProperties") (under "additionalProperties") v &&
  itemsHold (under "items") (under "additionalItems") v &&
  dependenciesHold (under "dependencies") v &&
  allHold (under "allOf") v && anyHolds (under "anyOf") v && oneHolds (under "oneOf") v &&
  noneHolds (under "not") v

/-- Keywords that are read alike in all drafts. -/
def commonKeywords : List String :=
  ["type", "required", "properties", "patternProperties", "additionalProperties", "items",
    "additionalItems", "dependencies", "allOf", "anyOf", "oneOf", "not"]

/-- Keywords that are read by draft, or beside one that is. -/
def draftKeywords : List String :=
  ["enum", "const", "maximum", "exclusiveMaximum", "minimum", "exclusiveMinimum"]

/-- Keywords that ask nothing of a value. -/
def silentKeywords : List String :=
  ["$schema", "id", "$id", "definitions"]

def isFurther (keyword : String) : Bool :=
  keyword ∉ commonKeywords ++ draftKeywords ++ silentKeywords

def furtherMembers (ms : Members) : Members :=
  ms.filter (isFurther ·.1)

/-! ### Schemas -/

/-- How schemas stand under a keyword. -/
inductive Form
  | data
  | schema
  | schemas
  | named
  | dependencies
  deriving DecidableEq

def formOf (keyword : String) : Form :=
  match keyword with
  | "additionalItems" | "additionalProperties" | "not" => .schema
  | "items" | "allOf" | "anyOf" | "oneOf" => .schemas
  | "properties" | "patternProperties" => .named
  | "dependencies" => .dependencies
  | _ => .data

mutual

def accepts (r : Reading) (d : Draft) : Json → Test
  | .object ms => fun v => holds r d (argumentUnder r d ms) v && r.further (furtherMembers ms) v
  | .boolean b => fun _ => b
  | .null => fun _ => false
  | .number _ => fun _ => false
  | .string _ => fun _ => false
  | .array _ => fun _ => false
termination_by structural s => s

def argumentUnder (r : Reading) (d : Draft) : List (String × Json) → String → Option Argument
  | [], _ => none
  | (k, s) :: rest, name =>
    if k = name then
      some (match formOf k, s with
        | .schema, s => .test (accepts r d s)
        | .schemas, .array list => .tests (testsOf r d list)
        | .schemas, s => .test (accepts r d s)
        | .named, .object table => .named (tableOfTests r d table)
        | .dependencies, .object table => .named (tableOfDependencies r d table)
        | _, s => .data s)
    else argumentUnder r d rest name
termination_by structural ms => ms

def testsOf (r : Reading) (d : Draft) : List Json → List Test
  | [] => []
  | s :: rest => accepts r d s :: testsOf r d rest
termination_by structural list => list

def tableOfTests (r : Reading) (d : Draft) : List (String × Json) → List (String × Test)
  | [] => []
  | (name, s) :: rest => (name, accepts r d s) :: tableOfTests r d rest
termination_by structural table => table

def tableOfDependencies (r : Reading) (d : Draft) : List (String × Json) → List (String × Test)
  | [] => []
  | (name, s) :: rest =>
    let asked :=
      match s with
      | .array names => hasNames names
      | s => accepts r d s
    (name, asked) :: tableOfDependencies r d rest
termination_by structural table => table

end

/-! ### The same without the walk -/

variable {r : Reading} {d : Draft}

/-- The test for what depends on a name: a schema, or names that have to be there too. -/
def dependencyTest (r : Reading) (d : Draft) : Json → Test
  | .array names => hasNames names
  | s => accepts r d s

/-- The value under a keyword with tests for the schemas in it. -/
def argument (r : Reading) (d : Draft) (keyword : String) (s : Json) : Argument :=
  match formOf keyword, s with
  | .schema, s => .test (accepts r d s)
  | .schemas, .array list => .tests (list.map (accepts r d))
  | .schemas, s => .test (accepts r d s)
  | .named, .object table => .named (table.map fun m => (m.1, accepts r d m.2))
  | .dependencies, .object table => .named (table.map fun m => (m.1, dependencyTest r d m.2))
  | _, s => .data s

theorem testsOf_eq_map (list : List Json) : testsOf r d list = list.map (accepts r d) := by
  induction list with
  | nil => rfl
  | cons s rest ih => rw [testsOf, ih, List.map_cons]

theorem tableOfTests_eq_map (table : Members) :
    tableOfTests r d table = table.map fun m => (m.1, accepts r d m.2) := by
  induction table with
  | nil => rfl
  | cons m rest ih => rw [tableOfTests, ih, List.map_cons]

theorem tableOfDependencies_eq_map (table : Members) :
    tableOfDependencies r d table = table.map fun m => (m.1, dependencyTest r d m.2) := by
  induction table with
  | nil => rfl
  | cons m rest ih =>
      obtain ⟨name, s⟩ := m
      unfold tableOfDependencies
      rw [ih, List.map_cons]
      cases s <;> rfl

theorem argumentUnder_eq (ms : Members) (name : String) :
    argumentUnder r d ms name = (ms.find? name).map (argument r d name) := by
  induction ms with
  | nil => rfl
  | cons m rest ih =>
      obtain ⟨k, s⟩ := m
      unfold argumentUnder
      rw [Members.find?_cons]
      by_cases hk : k = name
      · subst hk
        rw [if_pos rfl, if_pos rfl, Option.map_some]
        unfold argument
        cases formOf k <;> cases s <;>
          simp only [testsOf_eq_map, tableOfTests_eq_map, tableOfDependencies_eq_map]
      · rw [if_neg hk, if_neg hk, ih]

theorem argumentUnder_data {keyword : String} (h : formOf keyword = .data) (ms : Members) :
    argumentUnder r d ms keyword = (ms.find? keyword).map .data := by
  have hdata : argument r d keyword = .data := by
    funext s
    simp only [argument, h]
  rw [argumentUnder_eq, hdata]

theorem accepts_object (ms : Members) (v : Json) :
    accepts r d (.object ms) v =
      (holds r d (argumentUnder r d ms) v && r.further (furtherMembers ms) v) := by
  rw [accepts]

/-- Two schemas ask the same if they agree on the common keywords and each of the groups that a draft
reads in its own way asks the same. -/
theorem holds_congr {e : Draft} {under other : String → Option Argument}
    (hcommon : ∀ k ∈ commonKeywords, under k = other k)
    (hchoice : ∀ v,
      (choiceHolds r (under "enum") v && constantHolds r (under "const") d v) =
        (choiceHolds r (other "enum") v && constantHolds r (other "const") e v))
    (hbound : ∀ within strictlyWithin v,
      boundHolds within strictlyWithin (under "maximum") (under "exclusiveMaximum") d v =
          boundHolds within strictlyWithin (other "maximum") (other "exclusiveMaximum") e v ∧
        boundHolds within strictlyWithin (under "minimum") (under "exclusiveMinimum") d v =
          boundHolds within strictlyWithin (other "minimum") (other "exclusiveMinimum") e v) :
    holds r d under = holds r e other := by
  funext v
  simp only [commonKeywords, List.forall_mem_cons] at hcommon
  simp only [holds, hcommon, hchoice, (hbound _ _ v).1, (hbound _ _ v).2]

theorem accepts_put {name : String} (hname : name ∈ silentKeywords) (u : Json) (ms : Members) :
    accepts r d (.object (ms.put name u)) = accepts r d (.object ms) := by
  have hne : ∀ k ∈ commonKeywords ++ draftKeywords, k ≠ name := by
    have hall : ∀ name ∈ silentKeywords, ∀ k ∈ commonKeywords ++ draftKeywords, k ≠ name := by
      decide
    exact hall name hname
  have hunder : ∀ k ∈ commonKeywords ++ draftKeywords,
      argumentUnder r d (ms.put name u) k = argumentUnder r d ms k := by
    intro k hk
    rw [argumentUnder_eq, argumentUnder_eq, Members.find?_put_of_ne (hne k hk)]
  have hsilent : isFurther name = false := by
    have hall : ∀ name ∈ silentKeywords, isFurther name = false := by decide
    exact hall name hname
  have hfurther : furtherMembers (ms.put name u) = furtherMembers ms :=
    Members.filter_put hsilent u ms
  have hholds : holds r d (argumentUnder r d (ms.put name u)) = holds r d (argumentUnder r d ms) := by
    refine holds_congr (fun k hk => hunder k (List.mem_append_left _ hk)) (fun v => ?_)
      fun within strictly v => ?_
    · rw [hunder "enum" (by decide), hunder "const" (by decide)]
    · rw [hunder "maximum" (by decide), hunder "exclusiveMaximum" (by decide),
        hunder "minimum" (by decide), hunder "exclusiveMinimum" (by decide)]
      exact ⟨rfl, rfl⟩
  funext v
  rw [accepts_object, accepts_object, hfurther, hholds]

end RamlSchema.Schema
