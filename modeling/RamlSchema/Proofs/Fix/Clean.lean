import RamlSchema.Proofs.Fix.Marks

/-!
# Clean schemas

A schema is clean if no object in it calls for a rule. Clean schemas are left as they are, and no
other schema is: what one rule does is never undone by a later one. A mark that is taken off does
not come back, since some name would have to have one mark more than the names with the most.
Without marks in it a schema keeps its names, and then a file in it would stay a string.
-/

namespace RamlSchema

open Members Json

/-- No object of the tree is a file, has a marked name, or has a mapping of examples. -/
structure IsClean (v : Json) : Prop where
  noFile : anyObject FileType.isFile v = false
  noMark : anyObject VendorName.hasMarked v = false
  noMapping : anyObject ExampleList.hasMapping v = false

theorem IsClean.fixSchema_eq_self {v : Json} (h : IsClean v) : fixSchema v = v := by
  have hfile : FileType.rule.fix v = v := Rule.fix_eq_self h.noFile
  have hmark : VendorName.rule.fix v = v := Rule.fix_eq_self h.noMark
  have hmapping : ExampleList.rule.fix v = v := Rule.fix_eq_self h.noMapping
  rw [fixSchema, hfile, hmark, hmapping]

theorem mostMarks_eq_zero_iff {v : Json} :
    mostMarks v = 0 ↔ anyObject VendorName.hasMarked v = false := by
  rw [← Nat.le_zero, mostMarks_le_iff, ← Bool.not_eq_true, VendorName.anyObject_hasMarked_iff]
  simp only [VendorName.isMarked_iff_markCount_pos, not_exists, not_and, Nat.not_lt, Nat.le_zero]

theorem FileType.hasMarked_step {ms : Members} (h : VendorName.hasMarked ms = false) :
    VendorName.hasMarked (rule.step ms) = false := by
  rw [← Bool.not_eq_true, VendorName.hasMarked_iff] at h ⊢
  rintro ⟨k, hk, hmarked⟩
  rcases mem_ownNames_or_mem_names hk with hown | hk
  · exact VendorName.not_isMarked_of_mem_ownNames hown hmarked
  · exact h ⟨k, hk, hmarked⟩

theorem fixNode_of_not_hasMarked {ms : Members} (h : VendorName.hasMarked ms = false) :
    fixNode ms = ExampleList.rule.step (FileType.rule.step ms) :=
  congrArg _ (Rule.step_of_not_applies (FileType.hasMarked_step h))

/-- A schema without marks that stays as it is has no file in it. -/
theorem anyObject_isFile_of_fixSchema_eq_self {v : Json} (hfixed : fixSchema v = v)
    (hmark : anyObject VendorName.hasMarked v = false)
    (hmapping : anyObject ExampleList.hasMapping v = false) :
    anyObject FileType.isFile v = false := by
  induction v using Json.induction with
  | array items ih =>
      rw [anyObject_array_eq_false] at hmark hmapping ⊢
      rw [fixSchema_array, Json.array.injEq] at hfixed
      have hitems := List.map_inj_left.mp (hfixed.trans (List.map_id items).symm)
      exact fun v hv => ih v hv (hitems v hv) (hmark v hv) (hmapping v hv)
  | object ms ih =>
      rw [anyObject_object_eq_false] at hmark hmapping ⊢
      rw [fixSchema_object_eq_fixNode, Json.object.injEq, fixNode_of_not_hasMarked
        ((hasMarked_mapValues _ ms).trans hmark.1)] at hfixed
      have hfile : FileType.isFile ms = false := by
        have hstep := FileType.isFile_step (mapValues (fun _ => fixSchema) ms)
        unfold FileType.isFile at hstep ⊢
        rwa [← ExampleList.find?_step_of_ne (by decide), hfixed] at hstep
      have hvalues : mapValues (fun _ => fixSchema) ms = ms := by
        have hstep : FileType.rule.step (mapValues (fun _ => fixSchema) ms) = _ :=
          Rule.step_of_not_applies ((FileType.isFile_mapValues walks_fixSchema ms).trans hfile)
        rw [hstep, Rule.step_of_not_applies
          ((ExampleList.hasMapping_mapValues walks_fixSchema ms).trans hmapping.1)] at hfixed
        exact hfixed
      rw [mapValues_eq_self_iff] at hvalues
      exact ⟨hfile, fun m hm => ih m hm (hvalues m hm) (hmark.2 m hm) (hmapping.2 m hm)⟩
  | _ => rfl

/-- **Clean schemas are those that fixing leaves as they are.** -/
theorem fixSchema_eq_self_iff (v : Json) : fixSchema v = v ↔ IsClean v := by
  refine ⟨fun h => ?_, IsClean.fixSchema_eq_self⟩
  have hmark : anyObject VendorName.hasMarked v = false := by
    have hless := mostMarks_fixSchema v
    rw [h] at hless
    exact mostMarks_eq_zero_iff.mp (by omega)
  have hmapping : anyObject ExampleList.hasMapping v = false :=
    h ▸ ExampleList.anyObject_hasMapping_fix _
  exact ⟨anyObject_isFile_of_fixSchema_eq_self h hmark hmapping, hmark, hmapping⟩

end RamlSchema
