import RamlSchema.MetaSchema.Validity
import RamlSchema.Proofs.Json.Places
import RamlSchema.Proofs.Json.Pointer

/-!
# What a violation is about

A check goes into a value together with the steps that lead there, so a violation that it tells is
about what stands at the steps it names. It is about that value itself, except for two keywords: one
for members that need each other, and one for the names of members, which stand nowhere. In the
meta-schemas both are found at one place only, which is seen by going through their nodes.
-/

namespace RamlSchema.MetaSchema

open Members

/-- The flags of draft 04 that need a bound beside them. -/
def flagBounds : List (String × String) :=
  [("exclusiveMaximum", "maximum"), ("exclusiveMinimum", "minimum")]

mutual

/-- Of a node, where members need each other, a flag needs its bound; and where names are checked,
`here` is true, which it is under `patternProperties` if the draft has `patterns`. -/
def Node.isKnown (patterns here : Bool) : Node → Bool
  | .reference _ => true
  | .keywords all => keywordsAreKnown patterns here all
termination_by structural node => node

def Keyword.isKnown (patterns here : Bool) : Keyword → Bool
  | .properties named => namedAreKnown patterns named
  | .additionalProperties node => Node.isKnown patterns false node
  | .propertyNames node => here && Node.isKnown patterns false node
  | .dependencies named => named.all fun (name, needed) =>
      needed.all fun other => (name, other) ∈ flagBounds
  | .items node => Node.isKnown patterns false node
  | .anyOf _ => true
  | .allOf branches => branchesAreKnown patterns branches
  | .type _ | .minItems _ | .uniqueItems | .minimum _ | .exclusiveMinimum _ | .enum _
  | .format _ => true
termination_by structural keyword => keyword

def keywordsAreKnown (patterns here : Bool) : List Keyword → Bool
  | [] => true
  | keyword :: rest =>
    Keyword.isKnown patterns here keyword && keywordsAreKnown patterns here rest
termination_by structural all => all

def namedAreKnown (patterns : Bool) : List (String × Node) → Bool
  | [] => true
  | (name, node) :: rest =>
    Node.isKnown patterns (patterns && name == "patternProperties") node &&
      namedAreKnown patterns rest
termination_by structural named => named

def branchesAreKnown (patterns : Bool) : List Node → Bool
  | [] => true
  | branch :: rest => Node.isKnown patterns false branch && branchesAreKnown patterns rest
termination_by structural branches => branches

end

theorem keywordsAreKnown_iff {patterns here : Bool} {all : List Keyword} :
    keywordsAreKnown patterns here all = true ↔ ∀ k ∈ all, k.isKnown patterns here = true := by
  induction all with
  | nil => simp [keywordsAreKnown]
  | cons k rest ih => simp [keywordsAreKnown, ih]

theorem namedAreKnown_iff {patterns : Bool} {named : List (String × Node)} :
    namedAreKnown patterns named = true ↔ ∀ entry ∈ named,
      entry.2.isKnown patterns (patterns && entry.1 == "patternProperties") = true := by
  induction named with
  | nil => simp [namedAreKnown]
  | cons entry rest ih => simp [namedAreKnown, ih]

theorem branchesAreKnown_iff {patterns : Bool} {branches : List Node} :
    branchesAreKnown patterns branches = true ↔
      ∀ branch ∈ branches, branch.isKnown patterns false = true := by
  induction branches with
  | nil => simp [branchesAreKnown]
  | cons branch rest ih => simp [branchesAreKnown, ih]

theorem isKnown_metaSchema (d : Draft) (target : Definition) :
    (d.metaSchema.define target).isKnown (d == .draft07) false = true := by
  cases d <;> cases target <;> decide

/-! ### Violations and values -/

/-- A violation at a place is about the value there: it shows this value, it names a member that
this value lacks, or it shows the name of one of its members. -/
inductive Concerns (patterns : Bool) : List Step → Json → Violation → Prop
  | itself {place : List Step} {v : Json} {offence : Offence}
      (h : ∀ name, offence ≠ .missing name) : Concerns patterns place v ⟨place, v, offence⟩
  | missing {place : List Step} {ms : Members} {flag bound : String}
      (hpair : (flag, bound) ∈ flagBounds) (hflag : flag ∈ names ms) (hbound : bound ∉ names ms) :
      Concerns patterns place (.object ms) ⟨place, .object ms, .missing bound⟩
  | memberName {place : List Step} {ms : Members} {name : String} {offence : Offence}
      (hpatterns : patterns = true) (hplace : place.head? = some (.name "patternProperties"))
      (hname : name ∈ names ms) (h : ∀ name, offence ≠ .missing name) :
      Concerns patterns place (.object ms) ⟨place, .string name, offence⟩

theorem Concerns.reversedSteps_eq {patterns : Bool} {place : List Step} {v : Json} {x : Violation}
    (h : Concerns patterns place v x) : x.reversedSteps = place := by
  cases h <;> rfl

/-- A violation is about a value within one that stands at a place. -/
def About (patterns : Bool) (place : List Step) (v : Json) (x : Violation) : Prop :=
  ∃ steps w, v.at? steps = some w ∧ Concerns patterns (steps.reverse ++ place) w x

section About

variable {patterns : Bool} {place : List Step} {v w : Json} {x : Violation}

theorem Concerns.about (h : Concerns patterns place v x) : About patterns place v x :=
  ⟨[], v, rfl, h⟩

theorem About.inside {s : Step} (hs : s.follow? v = some w) (h : About patterns (s :: place) w x) :
    About patterns place v x := by
  obtain ⟨steps, u, hu, hconcerns⟩ := h
  refine ⟨s :: steps, u, by rw [Json.at?, hs]; exact hu, ?_⟩
  rwa [List.reverse_cons, List.append_assoc]

theorem About.of_string {name : String} (h : About patterns place (.string name) x) :
    ∃ offence, x = ⟨place, .string name, offence⟩ ∧ ∀ other, offence ≠ .missing other := by
  obtain ⟨steps, w, hw, hconcerns⟩ := h
  cases steps with
  | nil =>
      obtain rfl := Option.some.inj hw
      cases hconcerns with
      | itself h => exact ⟨_, rfl, h⟩
  | cons s steps => cases s <;> cases hw

end About

/-! ### What is told -/

/-- If a verdict is a violation, something is true of it. -/
def Tells (c : Verdict) (q : Violation → Prop) : Prop :=
  ∀ x, c = .error (.violation x) → q x

variable {q : Violation → Prop}

theorem tells_ok : Tells (.ok ()) q :=
  nofun

theorem tells_outOfSteps : Tells (.error .outOfSteps) q :=
  nofun

theorem tells_require {condition : Bool} {place : List Step} {v : Json} {offence : Offence}
    (h : condition = false → q ⟨place, v, offence⟩) :
    Tells (require condition place v offence) q := by
  intro x hx
  cases condition with
  | true => cases hx
  | false =>
      cases hx
      exact h rfl

theorem tells_inOrder {α : Type} {f : α → Verdict} {l : List α}
    (h : ∀ a ∈ l, Tells (f a) q) : Tells (inOrder f l) q := by
  induction l with
  | nil => exact tells_ok
  | cons a rest ih =>
      obtain ⟨ha, hrest⟩ := List.forall_mem_cons.mp h
      rw [inOrder]
      split
      · exact ih hrest
      · next stop hstop => exact hstop ▸ ha

theorem tells_eachItem {f : List Step → Json → Verdict} {place : List Step} {vs : List Json}
    (i : Nat) (h : ∀ j v, vs[j]? = some v → Tells (f (.index (i + j) :: place) v) q) :
    Tells (eachItem f place i vs) q := by
  induction vs generalizing i with
  | nil => exact tells_ok
  | cons v rest ih =>
      rw [eachItem]
      split
      · refine ih (i + 1) fun j w hw => ?_
        rw [Nat.add_right_comm]
        exact h (j + 1) w hw
      · next stop hstop => exact hstop ▸ h 0 v rfl

theorem tells_someBranch {f : Node → Verdict} {otherwise : Verdict} {branches : List Node}
    (h : Tells otherwise q) : Tells (someBranch f otherwise branches) q := by
  induction branches with
  | nil => exact h
  | cons branch rest ih =>
      rw [someBranch]
      split
      · exact tells_ok
      · exact tells_outOfSteps
      · exact ih

/-! ### Keywords and nodes -/

/-- A check of nodes tells of a value at a place what it is about. -/
def TellsAbout (patterns : Bool) (c : Check) : Prop :=
  ∀ node here place (v : Json), node.isKnown patterns here = true →
    (here = true → patterns = true ∧ place.head? = some (.name "patternProperties")) →
    v.HasDistinctNames → Tells (c node place v) (About patterns place v)

variable {patterns wholeFloats here : Bool} {c : Check} {place : List Step} {v : Json}

theorem tells_require_itself {condition : Bool} {offence : Offence}
    (h : ∀ name, offence ≠ .missing name) :
    Tells (require condition place v offence) (About patterns place v) :=
  tells_require fun _ => (Concerns.itself h).about

theorem tells_properties (hc : TellsAbout patterns c) {named : List (String × Node)} {ms : Members}
    (hknown : namedAreKnown patterns named = true) (hnames : (Json.object ms).HasDistinctNames) :
    Tells (checkKeyword wholeFloats c place (.object ms) (.properties named))
      (About patterns place (.object ms)) := by
  refine tells_inOrder fun entry hentry => ?_
  obtain ⟨name, node⟩ := entry
  dsimp only
  cases hfind : find? name ms with
  | none => exact tells_ok
  | some w =>
      have hw := (Json.hasDistinctNames_object.mp hnames).2 _ (mem_of_find? hfind)
      intro x hx
      refine .inside (s := .name name) hfind ?_
      refine hc node _ _ w (namedAreKnown_iff.mp hknown _ hentry) (fun hhere => ?_) hw x hx
      rw [Bool.and_eq_true, beq_iff_eq] at hhere
      exact ⟨hhere.1, by rw [← hhere.2]; rfl⟩

theorem tells_additionalProperties (hc : TellsAbout patterns c) {node : Node} {ms : Members}
    (hknown : node.isKnown patterns false = true) (hnames : (Json.object ms).HasDistinctNames) :
    Tells (checkKeyword wholeFloats c place (.object ms) (.additionalProperties node))
      (About patterns place (.object ms)) := by
  obtain ⟨hnodup, hvalues⟩ := Json.hasDistinctNames_object.mp hnames
  refine tells_inOrder fun m hm x hx => ?_
  refine .inside (s := .name m.1) ((find?_eq_some_iff hnodup).mpr hm) ?_
  exact hc node false _ m.2 hknown nofun (hvalues m hm) x hx

/-- The name of a member stands nowhere, so what is wrong with it is told at the object. -/
theorem tells_propertyNames (hc : TellsAbout patterns c) {node : Node} {ms : Members}
    (hknown : node.isKnown patterns false = true) (hpatterns : patterns = true)
    (hplace : place.head? = some (.name "patternProperties")) :
    Tells (checkKeyword wholeFloats c place (.object ms) (.propertyNames node))
      (About patterns place (.object ms)) := by
  refine tells_inOrder fun m hm x hx => ?_
  have hname : (Json.string m.1).HasDistinctNames := trivial
  obtain ⟨offence, rfl, h⟩ := (hc node false _ _ hknown nofun hname x hx).of_string
  exact (Concerns.memberName hpatterns hplace (mem_names_of_mem hm) h).about

theorem tells_dependencies {named : List (String × List String)} {ms : Members}
    (hknown : ∀ entry ∈ named, ∀ other ∈ entry.2, (entry.1, other) ∈ flagBounds) :
    Tells (checkKeyword wholeFloats c place (.object ms) (.dependencies named))
      (About patterns place (.object ms)) := by
  refine tells_inOrder fun entry hentry => ?_
  obtain ⟨name, needed⟩ := entry
  dsimp only
  split
  · next hname =>
      refine tells_inOrder fun other hother => tells_require fun habsent => ?_
      have hbound : other ∉ names ms := by simp [← has_iff, habsent]
      exact (Concerns.missing (hknown _ hentry other hother) (has_iff.mp hname) hbound).about
  · exact tells_ok

theorem tells_items (hc : TellsAbout patterns c) {node : Node} {vs : List Json}
    (hknown : node.isKnown patterns false = true) (hnames : (Json.array vs).HasDistinctNames) :
    Tells (checkKeyword wholeFloats c place (.array vs) (.items node))
      (About patterns place (.array vs)) := by
  refine tells_eachItem 0 fun i v hv x hx => ?_
  rw [Nat.zero_add] at hx
  have hitem := Json.hasDistinctNames_array.mp hnames v (List.mem_of_getElem? hv)
  exact .inside (s := .index i) hv (hc node false _ v hknown nofun hitem x hx)

theorem tells_checkKeyword (hc : TellsAbout patterns c) {keyword : Keyword}
    (hknown : keyword.isKnown patterns here = true)
    (hhere : here = true → patterns = true ∧ place.head? = some (.name "patternProperties"))
    (hnames : v.HasDistinctNames) :
    Tells (checkKeyword wholeFloats c place v keyword) (About patterns place v) := by
  cases keyword with
  | type kinds => exact tells_require_itself nofun
  | enum allowed => exact tells_require_itself nofun
  | properties named =>
      cases v with
      | object ms => exact tells_properties hc hknown hnames
      | _ => exact tells_ok
  | additionalProperties node =>
      cases v with
      | object ms => exact tells_additionalProperties hc hknown hnames
      | _ => exact tells_ok
  | propertyNames node =>
      rw [Keyword.isKnown, Bool.and_eq_true] at hknown
      obtain ⟨hpatterns, hplace⟩ := hhere hknown.1
      cases v with
      | object ms => exact tells_propertyNames hc hknown.2 hpatterns hplace
      | _ => exact tells_ok
  | dependencies named =>
      cases v with
      | object ms =>
          refine tells_dependencies fun entry hentry other hother => ?_
          rw [Keyword.isKnown, List.all_eq_true] at hknown
          simpa using List.all_eq_true.mp (hknown entry hentry) other hother
      | _ => exact tells_ok
  | items node =>
      cases v with
      | array vs => exact tells_items hc hknown hnames
      | _ => exact tells_ok
  | minItems count =>
      cases v with
      | array vs => exact tells_require_itself nofun
      | _ => exact tells_ok
  | uniqueItems =>
      cases v with
      | array vs => exact tells_require_itself nofun
      | _ => exact tells_ok
  | minimum bound =>
      cases v with
      | number n => exact tells_require_itself nofun
      | _ => exact tells_ok
  | exclusiveMinimum bound =>
      cases v with
      | number n => exact tells_require_itself nofun
      | _ => exact tells_ok
  | format form =>
      cases v with
      | string s => exact tells_require_itself nofun
      | _ => exact tells_ok
  | anyOf branches => exact tells_someBranch (tells_require_itself nofun)
  | allOf branches =>
      refine tells_inOrder fun branch hbranch => ?_
      exact hc branch false place v (branchesAreKnown_iff.mp hknown branch hbranch) nofun hnames

/-- However many steps a check has, what it tells of a value is about that value or one within it. -/
theorem tellsAbout_check {m : MetaSchema}
    (hm : ∀ target, (m.define target).isKnown patterns false = true) (steps : Nat) :
    TellsAbout patterns (check m steps) := by
  induction steps with
  | zero => exact fun _ _ _ _ _ _ _ => tells_outOfSteps
  | succ steps ih =>
      intro node here place v hknown hhere hnames
      cases node with
      | reference target => exact ih _ false place v (hm target) nofun hnames
      | keywords all =>
          refine tells_inOrder fun keyword hkeyword => ?_
          exact tells_checkKeyword ih (keywordsAreKnown_iff.mp hknown keyword hkeyword) hhere hnames

end RamlSchema.MetaSchema
