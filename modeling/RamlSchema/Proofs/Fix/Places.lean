import RamlSchema.Proofs.Fix.Names
import RamlSchema.Proofs.Json.Places

/-!
# Places in a fixed schema

Fixing looks at all names alike, at keywords and at names that an author chose for a property or a
definition. What stands somewhere in a schema therefore stands, fixed, where the same steps lead once
the names in them have lost their marks, as long as every member on the way is still there. So a
mapping of schemas under names keeps those names that have no mark, with a schema under each of them,
and what refers to a schema by such a name refers to one still.
-/

namespace RamlSchema

open Members VendorName

def Step.unmark : Step → Step
  | .name k => .name (VendorName.unmark k)
  | .index i => .index i

/-- Some steps lead to a value, and nothing on the way is lost when all is fixed: every member lasts,
and none is a mapping of examples, of which only a list is left. Of a file those members last that
last in its description. -/
inductive StaysAt : Json → List Step → Json → Prop
  | here (v : Json) : StaysAt v [] v
  | item {items : List Json} {i : Nat} {v w : Json} {steps : List Step} (hv : items[i]? = some v)
      (h : StaysAt v steps w) : StaysAt (.array items) (.index i :: steps) w
  | member {ms : Members} {k : String} {v w : Json} {steps : List Step} (hmem : (k, v) ∈ ms)
      (hlasts : Lasts (FileType.rule.step ms) k v)
      (hmapping : VendorName.unmark k = "examples" → v.isObject = false) (h : StaysAt v steps w) :
      StaysAt (.object ms) (.name k :: steps) w

namespace StaysAt

variable {v w : Json} {steps : List Step}

theorem at?_eq (hnames : v.HasDistinctNames) (h : StaysAt v steps w) : v.at? steps = some w := by
  induction h with
  | here v => rfl
  | item hv h ih =>
      rw [Json.at?, Step.follow?, hv]
      exact ih (Json.hasDistinctNames_array.mp hnames _ (List.mem_of_getElem? hv))
  | member hmem hlasts hmapping h ih =>
      obtain ⟨hnodup, hvalues⟩ := Json.hasDistinctNames_object.mp hnames
      rw [Json.at?, Step.follow?, (find?_eq_some_iff hnodup).mpr hmem]
      exact ih (hvalues _ hmem)

theorem hasDistinctNames (hnames : v.HasDistinctNames) (h : StaysAt v steps w) :
    w.HasDistinctNames :=
  Json.hasDistinctNames_of_at? hnames (h.at?_eq hnames)

theorem at?_fixSchema (hnames : v.HasDistinctNames) (h : StaysAt v steps w) :
    (fixSchema v).at? (steps.map Step.unmark) = some (fixSchema w) := by
  induction h with
  | here v => rfl
  | @item items i v w steps hv h ih =>
      have hitem : (items.map fixSchema)[i]? = some (fixSchema v) := by
        rw [List.getElem?_map, hv]
        rfl
      rw [fixSchema_array, List.map_cons, Step.unmark, Json.at?, Step.follow?, hitem]
      exact ih (Json.hasDistinctNames_array.mp hnames _ (List.mem_of_getElem? hv))
  | @member ms k v w steps hmem hlasts hmapping h ih =>
      obtain ⟨hnodup, hvalues⟩ := Json.hasDistinctNames_object.mp hnames
      have hlisted : ExampleList.listed (VendorName.unmark k) (fixSchema v) = fixSchema v := by
        apply ExampleList.listed_eq_self
        rw [walks_fixSchema.isObject]
        exact Decidable.not_or_of_imp hmapping
      rw [fixSchema_object_of_nodup hnodup, List.map_cons, Step.unmark, Json.at?, Step.follow?,
        find?_mapValues, find?_unmarkAll.mpr ⟨k, hlasts, rfl⟩, Option.map_some, hlisted]
      exact ih (hvalues _ hmem)

end StaysAt

/-- Names stay as they are only if none has a mark: each is what is left of one of them, and so for a
name with a mark there would be one with a mark more. -/
theorem eraseDups_map_unmark_eq_iff {ms : Members} (hnodup : (names ms).Nodup) :
    ((names ms).map unmark).eraseDups = names ms ↔ ∀ k ∈ names ms, isMarked k = false := by
  constructor
  · intro h k hk
    have hsource : ∀ k ∈ names ms, ∃ k' ∈ names ms, unmark k' = k := by
      intro k hk
      rwa [← h, List.mem_eraseDups, List.mem_map] at hk
    rw [← Bool.not_eq_true, isMarked_iff_markCount_pos]
    intro hmarked
    have hmore : ∀ n, ∃ k ∈ names ms, n < markCount k := by
      intro n
      induction n with
      | zero => exact ⟨k, hk, hmarked⟩
      | succ n ih =>
          obtain ⟨k, hk, hn⟩ := ih
          obtain ⟨k', hk', rfl⟩ := hsource k hk
          rw [markCount_unmark] at hn
          exact ⟨k', hk', by omega⟩
    obtain ⟨k', hk', hlt⟩ := hmore ((names ms).toFinset.sup markCount)
    exact absurd (Finset.le_sup (List.mem_toFinset.mpr hk')) (Nat.not_le_of_lt hlt)
  · intro h
    have hsame : (names ms).map unmark = names ms :=
      (List.map_congr_left fun k hk => unmark_of_not_isMarked (h k hk)).trans (List.map_id _)
    rw [hsame, ← names_ofPairs, ofPairs_of_nodup hnodup]

section Named

variable {named : Members} (hobjects : ∀ m ∈ named, m.2.isObject = true)

include hobjects

theorem not_isFile_of_objects : FileType.isFile named = false := by
  rw [← Bool.not_eq_true, FileType.isFile_iff]
  intro htype
  exact absurd (hobjects _ (mem_of_find? htype)) (by simp [Json.isObject])

theorem fixSchema_object_of_objects (hnodup : (names named).Nodup) :
    fixSchema (.object named) =
      .object (mapValues (fun k v => ExampleList.listed k (fixSchema v)) (unmarkAll named)) := by
  rw [fixSchema_object_of_nodup hnodup,
    Rule.step_of_not_applies (not_isFile_of_objects hobjects)]

theorem isObject_iff_of_mem_unmarkAll {m : String × Json}
    (hm : m ∈ mapValues (fun k v => ExampleList.listed k (fixSchema v)) (unmarkAll named)) :
    m.2.isObject = true ↔ m.1 ≠ "examples" := by
  obtain ⟨n, hn, rfl⟩ := List.mem_map.mp hm
  obtain ⟨n', hn', rfl⟩ := List.mem_map.mp (mem_of_mem_ofPairs hn)
  show (ExampleList.listed (unmark n'.1) (fixSchema n'.2)).isObject = true ↔ _
  rw [ExampleList.isObject_listed, walks_fixSchema.isObject]
  exact and_iff_right (hobjects n' hn')

end Named

/-- **What becomes of a mapping of objects under names, and of the texts that refer to them.** A
mapping that stays at a place has its names without marks, each where it came first, and an object
under every name but that of examples, where there is none any more. These are the names that it had
before exactly if none of them had a mark. Texts are what they were, and so a text that is such a name,
and has no mark, is the name of an object still. -/
theorem exists_mapping_at?_fixSchema {v : Json} (hnames : v.HasDistinctNames) :
    (∀ (steps : List Step) (named : Members), StaysAt v steps (.object named) →
      (∀ m ∈ named, m.2.isObject = true) →
      ∃ named' : Members, (fixSchema v).at? (steps.map Step.unmark) = some (.object named') ∧
        names named' = ((names named).map unmark).eraseDups ∧
        (names named' = names named ↔ ∀ k ∈ names named, isMarked k = false) ∧
        (∀ m ∈ named', m.2.isObject = true ↔ m.1 ≠ "examples") ∧
        ∀ k ∈ names named, isMarked k = false → k ≠ "examples" →
          ∃ ms : Members, find? k named' = some (.object ms)) ∧
      ∀ (steps : List Step) (s : String), StaysAt v steps (.string s) →
        (fixSchema v).at? (steps.map Step.unmark) = some (.string s) := by
  refine ⟨fun steps named hstays hobjects => ?_, fun steps s hstays => ?_⟩
  · have hnodup : (names named).Nodup :=
      (Json.hasDistinctNames_object.mp (hstays.hasDistinctNames hnames)).1
    have hplace := hstays.at?_fixSchema hnames
    rw [fixSchema_object_of_objects hobjects hnodup] at hplace
    refine ⟨_, hplace, ?_, ?_, fun m => isObject_iff_of_mem_unmarkAll hobjects, ?_⟩
    · rw [names_mapValues, names_unmarkAll]
    · rw [names_mapValues, names_unmarkAll]
      exact eraseDups_map_unmark_eq_iff hnodup
    · intro k hk hmarked hname
      have hmem : k ∈ names (unmarkAll named) :=
        mem_names_unmarkAll.mpr ⟨k, hk, unmark_of_not_isMarked hmarked⟩
      obtain ⟨w, hw⟩ : ∃ w, find? k (mapValues
          (fun k v => ExampleList.listed k (fixSchema v)) (unmarkAll named)) = some w := by
        rw [← Option.isSome_iff_exists]
        exact has_iff.mpr (by rwa [names_mapValues])
      have hobject := (isObject_iff_of_mem_unmarkAll hobjects (mem_of_find? hw)).mpr hname
      cases w with
      | object ms => exact ⟨ms, hw⟩
      | _ => cases hobject
  · rw [hstays.at?_fixSchema hnames, walks_fixSchema.string]

/-- A pet has a name, given twice, an age and examples. -/
def petSchema : Json :=
  .object [
    ("definitions", .object [
      ("x-amf-Pet", .object [
        ("x-amf-required", .array [.string "name"]),
        ("properties", .object [
          ("name", .object []),
          ("x-amf-age", .object [("type", .string "integer")]),
          ("examples", .object [("type", .string "array")]),
          ("x-amf-name", .object [("type", .string "file")])])])])]

theorem exists_mapping_at?_fixSchema_petSchema :
    (∃ named : Members,
      (fixSchema petSchema).at? [.name "definitions", .name "Pet", .name "properties"] =
        some (.object named) ∧
      names named = ["name", "age", "examples"] ∧
      (∀ m ∈ named, m.2.isObject = true ↔ m.1 ≠ "examples") ∧
      ∃ ms : Members, find? "name" named = some (.object ms)) ∧
    (fixSchema petSchema).at? [.name "definitions", .name "Pet", .name "required", .index 0] =
      some (.string "name") := by
  have hnames : petSchema.HasDistinctNames := by
    simp [petSchema, Json.HasDistinctNames, Json.ItemsHaveDistinctNames,
      Json.MembersHaveDistinctNames]
  have hpet : ∀ {steps w}, StaysAt (.object [
        ("x-amf-required", .array [.string "name"]),
        ("properties", .object [
          ("name", .object []),
          ("x-amf-age", .object [("type", .string "integer")]),
          ("examples", .object [("type", .string "array")]),
          ("x-amf-name", .object [("type", .string "file")])])]) steps w →
      StaysAt petSchema (.name "definitions" :: .name "x-amf-Pet" :: steps) w := by
    intro steps w h
    refine .member (by simp) ⟨[], [], rfl, by simp⟩ (by decide) ?_
    exact .member (by simp) ⟨[], [], rfl, by simp⟩ (by decide) h
  have hrequired : StaysAt petSchema
      [.name "definitions", .name "x-amf-Pet", .name "x-amf-required", .index 0]
      (.string "name") := by
    refine hpet (.member List.mem_cons_self ⟨[], [_], rfl, by decide⟩ (by decide) ?_)
    exact .item rfl (.here _)
  obtain ⟨hmapping, htext⟩ := exists_mapping_at?_fixSchema hnames
  obtain ⟨named, hplace, hnamed, -, hobjects, hreference⟩ :=
    hmapping _ _ (hpet (.member (List.mem_cons_of_mem _ List.mem_cons_self)
      ⟨[_], [], rfl, by simp⟩ (by decide) (.here _))) (by decide)
  refine ⟨⟨named, hplace, hnamed, hobjects, ?_⟩, htext _ _ hrequired⟩
  exact hreference "name" (by decide) (by decide) (by decide)

/-- A mapping of objects at a place of one value has the same names at this place of another, and
objects under them. -/
def KeepsNames (v w : Json) (steps : List Step) : Prop :=
  ∀ named : Members, v.at? steps = some (.object named) → (∀ m ∈ named, m.2.isObject = true) →
    ∃ named' : Members, w.at? steps = some (.object named') ∧ names named' = names named ∧
      ∀ m ∈ named', m.2.isObject = true

/-- A size is required under a name with a mark, and its unit is defined under a keyword that a later
member has too, once its mark is off. -/
def sizeSchema : Json :=
  .object [
    ("required", .array [.string "x-amf-size"]),
    ("properties", .object [("x-amf-size", .object [("type", .string "number")])]),
    ("definitions", .object [("Unit", .object [])]),
    ("x-amf-definitions", .object [])]

/-- A name with a mark does not stay, and a mapping does not stay where it is replaced. -/
theorem not_keepsNames_fixSchema_sizeSchema :
    ¬KeepsNames sizeSchema (fixSchema sizeSchema) [.name "properties"] ∧
      ¬KeepsNames sizeSchema (fixSchema sizeSchema) [.name "definitions"] := by
  constructor
  · intro h
    obtain ⟨named, hplace, hnames, _⟩ := h _ rfl (by decide)
    obtain rfl : named = [("size", .object [("type", .string "number")])] := by
      have hfixed : (fixSchema sizeSchema).at? [.name "properties"] =
          some (.object [("size", .object [("type", .string "number")])]) := by rfl
      exact Json.object.inj (Option.some.inj (hplace.symm.trans hfixed))
    exact absurd hnames (by decide)
  · intro h
    obtain ⟨named, hplace, hnames, _⟩ := h _ rfl (by decide)
    obtain rfl : named = [] := by
      have hfixed : (fixSchema sizeSchema).at? [.name "definitions"] = some (.object []) := by rfl
      exact Json.object.inj (Option.some.inj (hplace.symm.trans hfixed))
    exact absurd hnames (by decide)

end RamlSchema
