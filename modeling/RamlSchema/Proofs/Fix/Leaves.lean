import RamlSchema.Proofs.Fix.Steps
import RamlSchema.Proofs.Json.Entries
import Mathlib.Data.List.Nodup

/-!
# Scalars in a fixed tree

The rules for marks and for examples change names and the shape of objects, and the data is left. It
is there in the same order: a list of examples stands where the mapping stood, and a member without
its mark where it stood with it. Only where marks make two names of an object the same is a value
lost.
-/

namespace RamlSchema

open Members Json

namespace Json

mutual

/-- The scalars of a tree as they stand in its text. -/
def leaves : Json → List Json
  | object ms => leavesMembers ms
  | array items => leavesItems items
  | null => [null]
  | boolean b => [boolean b]
  | number n => [number n]
  | string s => [string s]
termination_by structural v => v

def leavesItems : List Json → List Json
  | [] => []
  | v :: rest => leaves v ++ leavesItems rest
termination_by structural vs => vs

def leavesMembers : List (String × Json) → List Json
  | [] => []
  | (_, v) :: rest => leaves v ++ leavesMembers rest
termination_by structural ms => ms

end

theorem leaves_array (items : List Json) : (array items).leaves = items.flatMap leaves := by
  rw [leaves]
  induction items with
  | nil => rfl
  | cons v rest ih => rw [leavesItems, ih, List.flatMap_cons]

theorem leaves_object (ms : Members) : (object ms).leaves = ms.flatMap fun m => m.2.leaves := by
  rw [leaves]
  induction ms with
  | nil => rfl
  | cons m rest ih => rw [leavesMembers, ih, List.flatMap_cons]

theorem leaves_object_put {k : String} {v w : Json} {ms : Members} (hfind : find? k ms = some v)
    (h : w.leaves = v.leaves) : (object (put k w ms)).leaves = (object ms).leaves := by
  have hmem := mem_names_of_mem (mem_of_find? hfind)
  obtain ⟨before, after, rfl, hbefore⟩ := find?_eq_some_iff_append.mp hfind
  rw [put_eq_replace hmem, replace_append_cons hbefore, leaves_object, leaves_object,
    List.flatMap_append, List.flatMap_append, List.flatMap_cons, List.flatMap_cons, h]

end Json

/-- A rule keeps the leaves of a tree if it keeps those of each object that has the names of one in
the tree. -/
theorem Rule.leaves_fix_of_step {r : Rule} {P : Json → Prop}
    (hitem : ∀ items, P (.array items) → ∀ v ∈ items, P v)
    (hvalue : ∀ ms : Members, P (.object ms) → ∀ m ∈ ms, P m.2)
    (hstep : ∀ ms ns : Members, P (.object ms) → names ns = names ms →
      (object (r.step ns)).leaves = (object ns).leaves)
    {v : Json} (hv : P v) : (r.fix v).leaves = v.leaves := by
  induction v using Json.induction with
  | array items ih =>
      rw [fix_array, leaves_array, leaves_array, List.flatMap_map]
      exact List.flatMap_congr fun v hmem => ih v hmem (hitem items hv v hmem)
  | object ms ih =>
      rw [fix_object, hstep ms _ hv (names_mapValues _ ms), leaves_object, leaves_object, mapValues,
        List.flatMap_map]
      exact List.flatMap_congr fun m hm => ih m hm (hvalue ms hv m hm)
  | _ => rfl

theorem ExampleList.leaves_step (ms : Members) :
    (object (rule.step ms)).leaves = (object ms).leaves := by
  rcases step_cases ms with ⟨_, hstep⟩ | ⟨es, hes, hstep⟩
  · rw [hstep]
  · rw [hstep]
    apply leaves_object_put hes
    rw [leaves_array, leaves_object, List.flatMap_map]

namespace VendorName

/-- Two names of an object become one when marks are taken off. -/
def mergesNames (ms : Members) : Bool :=
  (names ms).any fun k => (names ms).any fun l => k ≠ l ∧ unmark k = unmark l

theorem mergesNames_iff {ms : Members} :
    mergesNames ms = true ↔ ∃ k ∈ names ms, ∃ l ∈ names ms, k ≠ l ∧ unmark k = unmark l := by
  simp [mergesNames]

theorem leaves_step {ms : Members} (hnodup : (names ms).Nodup) (h : mergesNames ms = false) :
    (object (rule.step ms)).leaves = (object ms).leaves := by
  have hunmarked : (names (ms.map fun m => (unmark m.1, m.2))).Nodup := by
    have hnames : names (ms.map fun m => (unmark m.1, m.2)) = (names ms).map unmark := by
      simp [names, Function.comp_def]
    rw [hnames]
    refine hnodup.map_on fun k hk l hl heq => ?_
    by_contra hne
    rw [mergesNames_iff.mpr ⟨k, hk, l, hl, hne, heq⟩] at h
    exact absurd h.symm Bool.false_ne_true
  rw [step_eq_unmarkAll hnodup, unmarkAll, ofPairs_of_nodup hunmarked, leaves_object, leaves_object,
    List.flatMap_map]

end VendorName

/-- **No data is lost or put in another order.** Lists of examples have the data of the mappings, and
names without marks have the data that they had with them, unless two names of an object become one.
-/
theorem leaves_fix_eq_leaves (v : Json) :
    (ExampleList.rule.fix v).leaves = v.leaves ∧
      (v.HasDistinctNames → anyObject VendorName.mergesNames v = false →
        (VendorName.rule.fix v).leaves = v.leaves) := by
  constructor
  · apply Rule.leaves_fix_of_step (P := fun _ => True)
    · exact fun _ _ _ _ => trivial
    · exact fun _ _ _ _ => trivial
    · exact fun _ ns _ _ => ExampleList.leaves_step ns
    · trivial
  · intro hnames hmerges
    apply Rule.leaves_fix_of_step
      (P := fun v => v.HasDistinctNames ∧ anyObject VendorName.mergesNames v = false)
    · intro items h v hv
      exact ⟨hasDistinctNames_array.mp h.1 v hv, anyObject_array_eq_false.mp h.2 v hv⟩
    · intro ms h m hm
      exact ⟨(hasDistinctNames_object.mp h.1).2 m hm, (anyObject_object_eq_false.mp h.2).2 m hm⟩
    · intro ms ns h hnames
      obtain ⟨hnodup, -⟩ := hasDistinctNames_object.mp h.1
      obtain ⟨hmerges, -⟩ := anyObject_object_eq_false.mp h.2
      have hsame : VendorName.mergesNames ns = VendorName.mergesNames ms := by
        rw [VendorName.mergesNames, hnames, VendorName.mergesNames]
      exact VendorName.leaves_step (hnames ▸ hnodup) (hsame.trans hmerges)
    · exact ⟨hnames, hmerges⟩

/-- Two examples, of which one has a name with two marks beside the same name without any. -/
def yearsSchema : Json :=
  .object [
    ("x-amf-years", .string "all"),
    ("examples", .object [
      ("later", .array [.number (.integer 2), .object [
        ("x-amf-x-amf-year", .null), ("year", .boolean true)]]),
      ("earlier", .object [("examples", .object [("x-amf-one", .string "one")])])]),
    ("type", .string "object")]

theorem leaves_fix_yearsSchema :
    yearsSchema.HasDistinctNames ∧ anyObject VendorName.mergesNames yearsSchema = false ∧
      (ExampleList.rule.fix yearsSchema).leaves = [.string "all", .number (.integer 2), .null,
        .boolean true, .string "one", .string "object"] ∧
      (VendorName.rule.fix yearsSchema).leaves = [.string "all", .number (.integer 2), .null,
        .boolean true, .string "one", .string "object"] := by
  have hnames : yearsSchema.HasDistinctNames := by
    simp [yearsSchema, HasDistinctNames, ItemsHaveDistinctNames, MembersHaveDistinctNames]
  have hmerges : anyObject VendorName.mergesNames yearsSchema = false := by decide
  obtain ⟨hexamples, hvendor⟩ := leaves_fix_eq_leaves yearsSchema
  exact ⟨hnames, hmerges, hexamples.trans rfl, (hvendor hnames hmerges).trans rfl⟩

/-- Where two names become one, a value is lost. -/
example : (VendorName.rule.fix (.object [("year", .null), ("x-amf-year", .boolean true)])).leaves =
    [.boolean true] := by
  rfl

end RamlSchema
