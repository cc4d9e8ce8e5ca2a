import RamlSchema.Proofs.Fix.Clean
import RamlSchema.Proofs.Json.Alike

/-!
# Untouched trees and copies

A rule hands a tree back as it is if no object in it calls for the rule, and makes a copy otherwise.
A copy is never the tree that it was made of, not even up to the order of members: in the copy there
is no file, or no mapping of examples, or the names that had the most marks have one mark less. The
first two of these say as well that a second walk finds nothing to do.
-/

namespace RamlSchema

open Members Json

namespace FileType

theorem anyObject_isFile_fix (v : Json) : anyObject isFile (rule.fix v) = false := by
  refine Rule.anyObject_fix_eq_false (fun ms hvalues => ⟨isFile_step ms, fun m hm => ?_⟩) v
  rw [← Bool.not_eq_true]
  intro hinside
  obtain ⟨n, hn, hfile⟩ := exists_of_mem_step (spreads_anyObject isFile)
    (fun _ => not_isFile_of_mediaNames) hm hinside
  rw [hvalues n hn] at hfile
  exact Bool.false_ne_true hfile

theorem isFile_of_alike {ms ms' : Members} (h : Alike (.object ms) (.object ms'))
    (hfile : isFile ms = true) : isFile ms' = true := by
  rw [isFile_iff] at hfile ⊢
  obtain ⟨w, hw, halike⟩ := h.exists_find? hfile
  rw [hw, halike.string_eq]

end FileType

namespace ExampleList

theorem hasMapping_of_alike {ms ms' : Members} (h : Alike (.object ms) (.object ms'))
    (hmapping : hasMapping ms = true) : hasMapping ms' = true := by
  rw [hasMapping_eq_any, Option.any_eq_true] at hmapping ⊢
  obtain ⟨v, hv, hobject⟩ := hmapping
  obtain ⟨w, hw, halike⟩ := h.exists_find? hv
  exact ⟨w, hw, halike.isObject_eq.trans hobject⟩

end ExampleList

namespace VendorName

theorem mem_allNames_fix {v : Json} {k : String} (h : k ∈ (rule.fix v).allNames) :
    ∃ name ∈ v.allNames, unmark name = k := by
  induction v using Json.induction with
  | array items ih =>
      rw [Rule.fix_array, mem_allNames_array] at h
      obtain ⟨w, hw, h⟩ := h
      obtain ⟨v, hv, rfl⟩ := List.mem_map.mp hw
      obtain ⟨name, hname, hunmark⟩ := ih v hv h
      exact ⟨name, mem_allNames_array.mpr ⟨v, hv, hname⟩, hunmark⟩
  | object ms ih =>
      rw [Rule.fix_object, mem_allNames_object] at h
      rcases h with h | ⟨m, hm, h⟩
      · obtain ⟨m, hm, rfl⟩ := List.mem_map.mp h
        obtain ⟨name, hname, hunmark⟩ := mem_step hm
        have hmem := mem_names_of_mem hname
        rw [names_mapValues] at hmem
        exact ⟨name, mem_allNames_object.mpr (.inl hmem), hunmark⟩
      · obtain ⟨name, hname, _⟩ := mem_step hm
        obtain ⟨n, hn, heq⟩ := List.mem_map.mp hname
        rw [← (Prod.mk.inj heq).2] at h
        obtain ⟨k', hk', hunmark⟩ := ih n hn h
        exact ⟨k', mem_allNames_object.mpr (.inr ⟨n, hn, hk'⟩), hunmark⟩
  | _ => exact absurd h List.not_mem_nil

theorem mostMarks_fix (v : Json) : mostMarks (rule.fix v) ≤ mostMarks v - 1 := by
  rw [mostMarks_le_iff]
  intro k hk
  obtain ⟨name, hname, rfl⟩ := mem_allNames_fix hk
  rw [markCount_unmark]
  exact Nat.sub_le_sub_right (mostMarks_le_iff.mp le_rfl name hname) 1

theorem mostMarks_le_of_alike {v w : Json} (hnames : v.HasDistinctNames) (h : Alike v w) :
    mostMarks v ≤ mostMarks w := by
  rw [mostMarks_le_iff]
  intro k hk
  have hmem : k ∈ w.allNames :=
    h.of_spreads (spreads_allNames k) (fun h hk => h.names_perm.mem_iff.mp hk) hnames hk
  exact mostMarks_le_iff.mp le_rfl k hmem

/-- A copy has none of the names with the most marks, and so it is alike to the tree only if no name
in that has a mark. -/
theorem anyObject_eq_false_of_alike {v : Json} (hnames : v.HasDistinctNames)
    (h : Alike v (rule.fix v)) : anyObject hasMarked v = false := by
  have hmore := mostMarks_le_of_alike hnames h
  have hless := mostMarks_fix v
  exact mostMarks_eq_zero_iff.mp (by omega)

end VendorName

/-! ### Copies -/

/-- A rule does the same to a tree as if every object were rebuilt. It copies the tree exactly if some
object in it calls for the rule, and the copy is another tree, also up to the order of members. -/
structure Rule.CopiesOnWrite (r : Rule) (v : Json) : Prop where
  rebuilt : r.fix v = r.rebuild v
  untouched : r.fix? v = none ↔ anyObject r.applies v = false
  same : r.fix? v = none ↔ r.fix v = v
  alike : r.fix? v = none ↔ Alike v (r.fix v)

theorem Rule.copiesOnWrite_of_alike {r : Rule} {v : Json}
    (h : Alike v (r.fix v) → anyObject r.applies v = false) : r.CopiesOnWrite v := by
  have hsame : r.fix? v = none → r.fix v = v := fun hnone => fix_eq_self (fix?_eq_none_iff.mp hnone)
  have halike : r.fix v = v → Alike v (r.fix v) := fun heq => heq.symm ▸ .refl v
  have hnone : Alike v (r.fix v) → r.fix? v = none := fun h' => fix?_eq_none_iff.mpr (h h')
  exact ⟨fix_eq_rebuild v, fix?_eq_none_iff, ⟨hsame, fun heq => hnone (halike heq)⟩,
    ⟨fun hn => halike (hsame hn), hnone⟩⟩

/-- **Each of the three rules copies on write.** -/
theorem copiesOnWrite {v : Json} (hnames : v.HasDistinctNames) :
    FileType.rule.CopiesOnWrite v ∧ VendorName.rule.CopiesOnWrite v ∧
      ExampleList.rule.CopiesOnWrite v := by
  refine ⟨Rule.copiesOnWrite_of_alike fun h => ?_, Rule.copiesOnWrite_of_alike fun h => ?_,
    Rule.copiesOnWrite_of_alike fun h => ?_⟩
  · exact h.anyObject_eq_false FileType.isFile_of_alike hnames (FileType.anyObject_isFile_fix v)
  · exact VendorName.anyObject_eq_false_of_alike hnames h
  · exact h.anyObject_eq_false ExampleList.hasMapping_of_alike hnames
      (ExampleList.anyObject_hasMapping_fix v)

/-- Two ages, of which one takes the name of the other when marks are taken off. -/
def agesSchema : Json :=
  .object [
    ("x-amf-x-amf-age", .number (.integer 1)),
    ("properties", .array [.object [("x-amf-age", .number (.integer 2)), ("type", .string "file")]]),
    ("x-amf-age", .number (.integer 2))]

theorem copiesOnWrite_agesSchema :
    agesSchema.HasDistinctNames ∧
      ExampleList.rule.fix? agesSchema = none ∧
      (FileType.rule.fix? agesSchema ≠ none ∧ ¬Alike agesSchema (FileType.rule.fix agesSchema)) ∧
      VendorName.rule.fix? agesSchema ≠ none ∧
        ¬Alike agesSchema (VendorName.rule.fix agesSchema) := by
  have hnames : agesSchema.HasDistinctNames := by
    simp [agesSchema, HasDistinctNames, ItemsHaveDistinctNames, MembersHaveDistinctNames]
  obtain ⟨hfile, hvendor, hexamples⟩ := copiesOnWrite hnames
  have hcopied : FileType.rule.fix? agesSchema ≠ none ∧ VendorName.rule.fix? agesSchema ≠ none := by
    decide
  exact ⟨hnames, hexamples.untouched.mpr (by decide),
    ⟨hcopied.1, fun h => hcopied.1 (hfile.alike.mpr h)⟩,
    hcopied.2, fun h => hcopied.2 (hvendor.alike.mpr h)⟩

/-- **One walk is enough for files and for examples.** It leaves no file, and no mapping of examples,
at any depth, and so a second walk leaves the tree untouched. -/
theorem fix?_fix_eq_none (v : Json) :
    (anyObject FileType.isFile (FileType.rule.fix v) = false ∧
        FileType.rule.fix? (FileType.rule.fix v) = none) ∧
      anyObject ExampleList.hasMapping (ExampleList.rule.fix v) = false ∧
        ExampleList.rule.fix? (ExampleList.rule.fix v) = none := by
  have hfile := FileType.anyObject_isFile_fix v
  have hmapping := ExampleList.anyObject_hasMapping_fix v
  exact ⟨⟨hfile, Rule.fix?_eq_none_iff.mpr hfile⟩, hmapping, Rule.fix?_eq_none_iff.mpr hmapping⟩

/-- A file among the media types of a file. -/
example : FileType.rule.fix (.object [("type", .string "file"),
      ("x-amf-fileTypes", .array [.object [("type", .string "file")]])]) =
    .object [("type", .string "string"), ("media", .object [("binaryEncoding", .string "binary"),
      ("anyOf", .array [.object [("mediaType", .object [("type", .string "string"),
        ("media", .object [("binaryEncoding", .string "binary")])])]])])] := by
  rfl

end RamlSchema
