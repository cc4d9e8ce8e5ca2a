import RamlSchema.MetaSchema.Validity
import RamlSchema.Proofs.Json.Tree
import Mathlib.Logic.Relation

/-!
# How deep checks are nested

A check of a node at a value makes checks of other nodes: at the value itself, at what is directly in
it, or at the names of its members. The steps that a check has are enough if there are no longer
chains of checks than that, and this is so in any meta-schema.

The meta-schemas have cycles, all of them through their roots, so what bounds the chains is the node
and the value together. A chain that stays at one value runs through references and branches only, and
for each node there is a limit to that, which is found by going through the nodes. A chain that goes
into the value has less of it left. The root asks for nothing at its own value, so a chain that comes
back to the root has gone into the value.
-/

namespace RamlSchema

/-- An item of an array, or the value of a member of an object. -/
inductive Json.IsPart : Json → Json → Prop
  | item {w : Json} {vs : List Json} (h : w ∈ vs) : IsPart w (.array vs)
  | member {m : String × Json} {ms : Members} (h : m ∈ ms) : IsPart m.2 (.object ms)

theorem Json.IsPart.depth_lt {w v : Json} (h : w.IsPart v) : w.depth < v.depth := by
  cases h with
  | item h => exact depth_lt_of_mem_array h
  | member h => exact depth_lt_of_mem_object h

/-- A part of a value, a part of a part, and so on. -/
def Json.IsWithin : Json → Json → Prop :=
  Relation.TransGen Json.IsPart

namespace MetaSchema

/-! ### Checks that a check makes -/

/-- A check of a keyword at a value may ask for a check of a node at a value. -/
inductive Keyword.Asks (v : Json) : Keyword → Node → Json → Prop
  | property {named : List (String × Node)} {entry : String × Node} {ms : Members} {w : Json}
      (hv : v = .object ms) (hentry : entry ∈ named) (hw : Members.find? entry.1 ms = some w) :
      Asks v (.properties named) entry.2 w
  | additionalProperty {node : Node} {ms : Members} {m : String × Json} (hv : v = .object ms)
      (hm : m ∈ ms) : Asks v (.additionalProperties node) node m.2
  | propertyName {node : Node} {ms : Members} {m : String × Json} (hv : v = .object ms)
      (hm : m ∈ ms) : Asks v (.propertyNames node) node (.string m.1)
  | item {node : Node} {vs : List Json} {w : Json} (hv : v = .array vs) (hw : w ∈ vs) :
      Asks v (.items node) node w
  | anyOf {branches : List Node} {branch : Node} (h : branch ∈ branches) :
      Asks v (.anyOf branches) branch v
  | allOf {branches : List Node} {branch : Node} (h : branch ∈ branches) :
      Asks v (.allOf branches) branch v

abbrev Visit :=
  Node × Json

/-- A check may be made directly inside another one. Which of these are made depends on what the
earlier ones come to. -/
inductive Nests (m : MetaSchema) : Visit → Visit → Prop
  | reference {target : Definition} {v : Json} :
      Nests m (.reference target, v) (m.define target, v)
  | keyword {all : List Keyword} {keyword : Keyword} {node : Node} {v w : Json}
      (hkeyword : keyword ∈ all) (h : keyword.Asks v node w) :
      Nests m (.keywords all, v) (node, w)

/-! ### Steps that are enough -/

/-- A verdict for which there were steps enough, and the same one with more of them. -/
def Settles (few more : Verdict) : Prop :=
  few ≠ .error .outOfSteps ∧ more = few

theorem settles_ok : Settles (.ok ()) (.ok ()) :=
  ⟨nofun, rfl⟩

theorem settles_require (condition : Bool) (place : List Step) (v : Json) (offence : Offence) :
    Settles (require condition place v offence) (require condition place v offence) := by
  cases condition with
  | false => exact ⟨nofun, rfl⟩
  | true => exact settles_ok

theorem settles_inOrder {α : Type} {f g : α → Verdict} {l : List α}
    (h : ∀ a ∈ l, Settles (f a) (g a)) : Settles (inOrder f l) (inOrder g l) := by
  induction l with
  | nil => exact settles_ok
  | cons a rest ih =>
      obtain ⟨⟨hsteps, hsame⟩, hrest⟩ := List.forall_mem_cons.mp h
      rw [inOrder, inOrder, hsame]
      cases hverdict : f a with
      | ok u => exact ih hrest
      | error stop =>
          rw [hverdict] at hsteps
          exact ⟨hsteps, rfl⟩

theorem settles_eachItem {f g : List Step → Json → Verdict} {place : List Step} {vs : List Json}
    (h : ∀ v ∈ vs, ∀ place, Settles (f place v) (g place v)) (i : Nat) :
    Settles (eachItem f place i vs) (eachItem g place i vs) := by
  induction vs generalizing i with
  | nil => exact settles_ok
  | cons v rest ih =>
      obtain ⟨hv, hrest⟩ := List.forall_mem_cons.mp h
      obtain ⟨hsteps, hsame⟩ := hv (.index i :: place)
      rw [eachItem, eachItem, hsame]
      cases hverdict : f (.index i :: place) v with
      | ok u => exact ih hrest (i + 1)
      | error stop =>
          rw [hverdict] at hsteps
          exact ⟨hsteps, rfl⟩

theorem settles_someBranch {f g : Node → Verdict} {otherwise : Verdict} {branches : List Node}
    (hotherwise : Settles otherwise otherwise) (h : ∀ b ∈ branches, Settles (f b) (g b)) :
    Settles (someBranch f otherwise branches) (someBranch g otherwise branches) := by
  induction branches with
  | nil => exact hotherwise
  | cons branch rest ih =>
      obtain ⟨⟨hsteps, hsame⟩, hrest⟩ := List.forall_mem_cons.mp h
      rw [someBranch, someBranch, hsame]
      cases hverdict : f branch with
      | ok u => exact settles_ok
      | error stop =>
          cases stop with
          | outOfSteps => exact absurd hverdict hsteps
          | violation x => exact ih hrest

theorem settles_checkKeyword {wholeFloats : Bool} {few more : Check} {v : Json} {keyword : Keyword}
    (h : ∀ node w, keyword.Asks v node w → ∀ place, Settles (few node place w) (more node place w))
    (place : List Step) :
    Settles (checkKeyword wholeFloats few place v keyword)
      (checkKeyword wholeFloats more place v keyword) := by
  cases keyword with
  | type kinds => exact settles_require _ _ _ _
  | enum allowed => exact settles_require _ _ _ _
  | properties named =>
      cases v with
      | object ms =>
          refine settles_inOrder fun entry hentry => ?_
          dsimp only
          cases hw : Members.find? entry.1 ms with
          | none => exact settles_ok
          | some w => exact h _ w (.property rfl hentry hw) _
      | _ => exact settles_ok
  | additionalProperties node =>
      cases v with
      | object ms => exact settles_inOrder fun m hm => h node m.2 (.additionalProperty rfl hm) _
      | _ => exact settles_ok
  | propertyNames node =>
      cases v with
      | object ms => exact settles_inOrder fun m hm => h node _ (.propertyName rfl hm) place
      | _ => exact settles_ok
  | dependencies named =>
      cases v with
      | object ms =>
          refine settles_inOrder fun entry _ => ?_
          dsimp only
          split
          · exact settles_inOrder fun other _ => settles_require _ _ _ _
          · exact settles_ok
      | _ => exact settles_ok
  | items node =>
      cases v with
      | array vs => exact settles_eachItem (fun w hw => h node w (.item rfl hw)) 0
      | _ => exact settles_ok
  | minItems count =>
      cases v with
      | array vs => exact settles_require _ _ _ _
      | _ => exact settles_ok
  | uniqueItems =>
      cases v with
      | array vs => exact settles_require _ _ _ _
      | _ => exact settles_ok
  | minimum bound =>
      cases v with
      | number n => exact settles_require _ _ _ _
      | _ => exact settles_ok
  | exclusiveMinimum bound =>
      cases v with
      | number n => exact settles_require _ _ _ _
      | _ => exact settles_ok
  | format form =>
      cases v with
      | string s => exact settles_require _ _ _ _
      | _ => exact settles_ok
  | anyOf branches =>
      refine settles_someBranch (settles_require _ _ _ _) fun branch hbranch => ?_
      exact h branch v (.anyOf hbranch) place
  | allOf branches =>
      exact settles_inOrder fun branch hbranch => h branch v (.allOf hbranch) place

/-- No more than so many checks are nested in each other from this one on, itself included. -/
def NestsAtMost (m : MetaSchema) (n : Nat) (x : Visit) : Prop :=
  ∀ visits, List.IsChain (Nests m) (x :: visits) → visits.length < n

variable {m : MetaSchema}

theorem NestsAtMost.of_nests {n : Nat} {x y : Visit} (h : NestsAtMost m (n + 1) x)
    (hxy : Nests m x y) : NestsAtMost m n y := by
  intro visits hvisits
  have hlength := h (y :: visits) (List.isChain_cons_cons.mpr ⟨hxy, hvisits⟩)
  exact Nat.lt_of_succ_lt_succ hlength

theorem not_nestsAtMost_zero (x : Visit) : ¬NestsAtMost m 0 x :=
  fun h => absurd (h [] (.singleton x)) (Nat.not_lt_zero _)

/-- As many steps as checks are nested settle a verdict: a check spends one step, and leaves one level
of nesting behind. -/
theorem settles_check {n : Nat} {node : Node} {v : Json} (h : NestsAtMost m n (node, v))
    (more : Nat) (place : List Step) :
    Settles (check m n node place v) (check m (n + more) node place v) := by
  induction n generalizing node v place with
  | zero => exact absurd h (not_nestsAtMost_zero _)
  | succ n ih =>
      rw [Nat.add_right_comm]
      cases node with
      | reference target => exact ih (h.of_nests .reference) place
      | keywords all =>
          refine settles_inOrder fun keyword hkeyword => ?_
          refine settles_checkKeyword (fun node w hasks place => ?_) place
          exact ih (h.of_nests (.keyword hkeyword hasks)) place

/-! ### How long a check stays at a value -/

/-- A keyword that asks for no check. -/
def Keyword.isLast : Keyword → Bool
  | .properties _ | .additionalProperties _ | .propertyNames _ | .items _ | .anyOf _
  | .allOf _ => false
  | .type _ | .dependencies _ | .minItems _ | .uniqueItems | .minimum _ | .exclusiveMinimum _
  | .enum _ | .format _ => true

/-- A node in which no check is nested. -/
def Node.isLast : Node → Bool
  | .reference _ => false
  | .keywords all => all.all Keyword.isLast

/-- How many checks at one value are nested in each other from a definition on. -/
def Definition.limit : Definition → Nat
  | .countOrZero => 3
  | .root | .schemaList | .count | .simpleType | .nameList => 1

mutual

/-- From a node on, at most `limit` checks at one value are nested in each other, itself included.
Inside the value the count starts again, with four, and the name of a member is the end of it. -/
def Node.staysWithin (limit : Nat) : Node → Bool
  | .reference target => target.limit < limit
  | .keywords all => 0 < limit && keywordsStayWithin (limit - 1) all
termination_by structural node => node

/-- `Node.staysWithin` for the nodes that a keyword asks for at the value itself. -/
def Keyword.staysWithin (limit : Nat) : Keyword → Bool
  | .properties named => namedStayWithin named
  | .additionalProperties node => Node.staysWithin 4 node
  | .propertyNames node => node.isLast && Node.staysWithin 4 node
  | .items node => Node.staysWithin 4 node
  | .anyOf branches => branchesStayWithin limit branches
  | .allOf branches => branchesStayWithin limit branches
  | .type _ | .dependencies _ | .minItems _ | .uniqueItems | .minimum _ | .exclusiveMinimum _
  | .enum _ | .format _ => true
termination_by structural keyword => keyword

def keywordsStayWithin (limit : Nat) : List Keyword → Bool
  | [] => true
  | keyword :: rest => Keyword.staysWithin limit keyword && keywordsStayWithin limit rest
termination_by structural all => all

def namedStayWithin : List (String × Node) → Bool
  | [] => true
  | (_, node) :: rest => Node.staysWithin 4 node && namedStayWithin rest
termination_by structural named => named

def branchesStayWithin (limit : Nat) : List Node → Bool
  | [] => true
  | branch :: rest => Node.staysWithin limit branch && branchesStayWithin limit rest
termination_by structural branches => branches

end

theorem keywordsStayWithin_iff {limit : Nat} {all : List Keyword} :
    keywordsStayWithin limit all = true ↔ ∀ k ∈ all, k.staysWithin limit = true := by
  induction all with
  | nil => simp [keywordsStayWithin]
  | cons k rest ih => simp [keywordsStayWithin, ih]

theorem namedStayWithin_iff {named : List (String × Node)} :
    namedStayWithin named = true ↔ ∀ entry ∈ named, entry.2.staysWithin 4 = true := by
  induction named with
  | nil => simp [namedStayWithin]
  | cons entry rest ih => simp [namedStayWithin, ih]

theorem branchesStayWithin_iff {limit : Nat} {branches : List Node} :
    branchesStayWithin limit branches = true ↔
      ∀ branch ∈ branches, branch.staysWithin limit = true := by
  induction branches with
  | nil => simp [branchesStayWithin]
  | cons branch rest ih => simp [branchesStayWithin, ih]

theorem staysWithin_metaSchema (d : Draft) (target : Definition) :
    (d.metaSchema.define target).staysWithin target.limit = true := by
  cases d <;> cases target <;> decide

theorem Node.limit_pos {limit : Nat} {node : Node} (h : node.staysWithin limit = true) :
    0 < limit := by
  cases node with
  | reference target =>
      rw [staysWithin, decide_eq_true_iff] at h
      exact Nat.zero_lt_of_lt h
  | keywords all =>
      rw [staysWithin, Bool.and_eq_true, decide_eq_true_iff] at h
      exact h.1

/-- Where a check that is nested in another one stands: at the same value, in which case fewer
checks are left to be nested there; inside the value; or at a name, in which case it is the last. -/
inductive Leads (limit : Nat) (x y : Visit) : Prop
  | stays {less : Nat} (hless : less < limit) (hnode : y.1.staysWithin less = true)
      (hvalue : y.2 = x.2)
  | enters (hnode : y.1.staysWithin 4 = true) (hpart : y.2.IsPart x.2)
  | ends (hnode : y.1.staysWithin 4 = true) (hlast : y.1.isLast = true)
      (hdepth : y.2.depth < x.2.depth)

theorem Nests.leads (hm : ∀ target, (m.define target).staysWithin target.limit = true)
    {limit : Nat} {x y : Visit} (hx : x.1.staysWithin limit = true) (h : Nests m x y) :
    Leads limit x y := by
  cases h with
  | @reference target v =>
      rw [Node.staysWithin, decide_eq_true_iff] at hx
      exact .stays hx (hm target) rfl
  | @keyword all keyword node v w hkeyword hasks =>
      have hpos := Node.limit_pos hx
      rw [Node.staysWithin, Bool.and_eq_true] at hx
      have hstays := keywordsStayWithin_iff.mp hx.2 keyword hkeyword
      have hless : limit - 1 < limit := by omega
      cases hasks with
      | property hv hentry hw =>
          subst hv
          refine .enters (namedStayWithin_iff.mp hstays _ hentry) ?_
          exact .member (Members.mem_of_find? hw)
      | additionalProperty hv hmem =>
          subst hv
          exact .enters hstays (.member hmem)
      | propertyName hv hmem =>
          subst hv
          rw [Keyword.staysWithin, Bool.and_eq_true] at hstays
          exact .ends hstays.2 hstays.1 (Nat.succ_pos _)
      | item hv hmem =>
          subst hv
          exact .enters hstays (.item hmem)
      | anyOf hbranch => exact .stays hless (branchesStayWithin_iff.mp hstays _ hbranch) rfl
      | allOf hbranch => exact .stays hless (branchesStayWithin_iff.mp hstays _ hbranch) rfl

theorem not_nests_of_isLast {x y : Visit} (hx : x.1.isLast = true) : ¬Nests m x y := by
  intro h
  cases h with
  | reference => cases hx
  | keyword hkeyword hasks =>
      have hlast := List.all_eq_true.mp hx _ hkeyword
      cases hasks <;> cases hlast

/-! ### Chains of checks -/

section Chains

variable (hm : ∀ target, (m.define target).staysWithin target.limit = true)

include hm

/-- A check enters the value after four checks at most, so the depth of the value bounds how many
are nested in each other. -/
theorem nestsAtMost_of_staysWithin {limit : Nat} {x : Visit} (hx : x.1.staysWithin limit = true) :
    NestsAtMost m (limit + 4 * x.2.depth) x := by
  intro visits
  induction visits generalizing limit x with
  | nil =>
      intro _
      exact Nat.add_pos_left (Node.limit_pos hx) _
  | cons y rest ih =>
      intro hchain
      obtain ⟨hxy, hrest⟩ := List.isChain_cons_cons.mp hchain
      have hpos := Node.limit_pos hx
      rw [List.length_cons]
      cases hxy.leads hm hx with
      | stays hless hnode hvalue =>
          have hlength := ih hnode hrest
          rw [hvalue] at hlength
          omega
      | enters hnode hpart =>
          have hlength := ih hnode hrest
          have hdepth := hpart.depth_lt
          omega
      | ends hnode _ hdepth =>
          have hlength := ih hnode hrest
          omega

/-- From the root on every check is inside the value at which the root was checked, or at the end of
its chain. The first one is, since the root asks for nothing at the value itself. -/
theorem isWithin_or_isLast_of_transGen {v : Json} {x : Visit}
    (h : Relation.TransGen (Nests m) (m.define .root, v) x) :
    (∃ limit, x.1.staysWithin limit = true) ∧ (x.2.IsWithin v ∨ x.1.isLast = true) := by
  induction h with
  | single hnests =>
      cases hnests.leads hm (hm .root) with
      | stays hless hnode _ =>
          have hpos := Node.limit_pos hnode
          rw [Definition.limit] at hless
          omega
      | enters hnode hpart => exact ⟨⟨4, hnode⟩, .inl (.single hpart)⟩
      | ends hnode hlast _ => exact ⟨⟨4, hnode⟩, .inr hlast⟩
  | tail _ hnests ih =>
      obtain ⟨⟨limit, hlimit⟩, hwithin | hlast⟩ := ih
      · cases hnests.leads hm hlimit with
        | @stays less _ hnode hvalue => exact ⟨⟨less, hnode⟩, .inl (hvalue ▸ hwithin)⟩
        | enters hnode hpart => exact ⟨⟨4, hnode⟩, .inl (.head hpart hwithin)⟩
        | ends hnode hlast _ => exact ⟨⟨4, hnode⟩, .inr hlast⟩
      · exact absurd hnests (not_nests_of_isLast hlast)

theorem isWithin_of_transGen_root {v w : Json}
    (h : Relation.TransGen (Nests m) (m.define .root, v) (.reference .root, w)) :
    w.IsWithin v := by
  obtain ⟨_, hwithin | hlast⟩ := isWithin_or_isLast_of_transGen hm h
  · exact hwithin
  · cases hlast

end Chains

end MetaSchema

open MetaSchema

/-- **The check of a schema comes to an end, since every way back to the root of the meta-schema goes
into the schema.** No more than four checks for each level of the schema are nested in each other;
so many steps are enough, and with more of them the verdict is the same. -/
theorem nested_checks_end (d : Draft) (v : Json) :
    (∀ w, Relation.TransGen (Nests d.metaSchema) (d.metaSchema.define .root, v)
        (.reference .root, w) → w.IsWithin v) ∧
      (∀ visits, List.IsChain (Nests d.metaSchema) ((d.metaSchema.define .root, v) :: visits) →
        visits.length + 1 ≤ 4 * (v.depth + 1)) ∧
      ∀ place steps, 4 * (v.depth + 1) ≤ steps →
        check d.metaSchema steps (d.metaSchema.define .root) place v ≠ .error .outOfSteps ∧
          check d.metaSchema steps (d.metaSchema.define .root) place v =
            check d.metaSchema (4 * (v.depth + 1)) (d.metaSchema.define .root) place v := by
  have hroot := staysWithin_metaSchema d
  have hnested : NestsAtMost d.metaSchema (4 * (v.depth + 1)) (d.metaSchema.define .root, v) := by
    intro visits hvisits
    have hlength : visits.length < Definition.root.limit + 4 * v.depth :=
      nestsAtMost_of_staysWithin hroot (hroot .root) visits hvisits
    rw [Definition.limit] at hlength
    omega
  refine ⟨fun w => isWithin_of_transGen_root hroot, hnested, fun place steps hsteps => ?_⟩
  obtain ⟨more, rfl⟩ := Nat.exists_eq_add_of_le hsteps
  obtain ⟨henough, hsame⟩ := settles_check hnested more place
  exact ⟨hsame ▸ henough, hsame⟩

def listedSchema : Json :=
  .object [("items", .array [.object []])]

/-- The way from the root of the meta-schema to the schema in the list, and back to the root. -/
def listedVisits : List Visit :=
  [(.schemaOrList, .array [.object []]), (.reference .schemaList, .array [.object []]),
    (.schemaList, .array [.object []]), (.reference .root, .object []),
    (Draft04.root, .object [])]

theorem isChain_listedVisits :
    List.IsChain (Nests Draft.draft04.metaSchema) ((Draft04.root, listedSchema) :: listedVisits) := by
  have hitems : ("items", Node.schemaOrList) ∈ Draft04.properties := by
    simp [Draft04.properties]
  simp only [listedVisits, List.isChain_cons_cons]
  refine ⟨?_, ?_, .reference, ?_, .reference, .singleton _⟩
  · exact .keyword (List.mem_cons_of_mem _ List.mem_cons_self) (.property rfl hitems rfl)
  · exact .keyword List.mem_cons_self (.anyOf (List.mem_cons_of_mem _ List.mem_cons_self))
  · exact .keyword (by simp) (.item rfl List.mem_cons_self)

theorem isWithin_listedSchema :
    (Json.object []).IsWithin listedSchema ∧
      listedVisits.length + 1 ≤ 4 * (listedSchema.depth + 1) ∧
      check Draft04.metaSchema 1000 Draft04.root [] listedSchema =
        check Draft04.metaSchema 16 Draft04.root [] listedSchema := by
  obtain ⟨hreturn, hlength, hsteps⟩ := nested_checks_end .draft04 listedSchema
  refine ⟨hreturn _ ?_, hlength _ isChain_listedVisits, (hsteps [] 1000 (by decide)).2⟩
  obtain ⟨hlist, hbranch, hreference, hitem, _⟩ := by
    simpa only [listedVisits, List.isChain_cons_cons] using isChain_listedVisits
  exact .head hlist (.head hbranch (.head hreference (.single hitem)))

end RamlSchema
