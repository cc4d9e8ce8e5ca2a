import RamlSchema.Proofs.Schema.Shape

/-!
# Schemas of draft 07 are schemas of draft 06

Draft 07 has all keywords of draft 06 and asks the same under them, or more. What it asks under its
own keywords draft 06 does not ask at all.
-/

namespace RamlSchema.Schema

/-- A value keeps its shape from one draft to another, if the schemas in it become schemas of the
other draft. -/
theorem Fits.of_schemas {d e : Draft} (he : e ≠ .draft04) {shape : Shape} {v : Json}
    (h : Fits d shape v)
    (hschemas : ∀ w : Json, w.depth ≤ v.depth → IsSchema d w → IsSchema e w) :
    Fits e shape v := by
  have hitems : (∃ items, v = .array items ∧ items ≠ [] ∧ ∀ w ∈ items, IsSchema d w) →
      ∃ items, v = .array items ∧ items ≠ [] ∧ ∀ w ∈ items, IsSchema e w := by
    rintro ⟨items, rfl, hne, hitems⟩
    refine ⟨items, rfl, hne, fun w hw => hschemas w ?_ (hitems w hw)⟩
    exact Nat.le_of_lt (Json.depth_lt_of_mem_array hw)
  cases shape with
  | data holds => exact h
  | schema => exact hschemas v (Nat.le_refl _) h
  | flagOrSchema => exact h.imp id (hschemas v (Nat.le_refl _))
  | schemaOrList => exact h.imp (hschemas v (Nat.le_refl _)) hitems
  | schemaList => exact hitems h
  | named allowed =>
      obtain ⟨named, rfl, hallowed, hnamed⟩ := h
      refine ⟨named, rfl, hallowed, fun m hm => hschemas m.2 ?_ (hnamed m hm)⟩
      exact Nat.le_of_lt (Json.depth_lt_of_mem_object hm)
  | dependencies =>
      obtain ⟨named, rfl, hnamed⟩ := h
      refine ⟨named, rfl, fun m hm => (hnamed m hm).imp ?_ (isNameList_of_ne_draft04 he)⟩
      exact hschemas m.2 (Nat.le_of_lt (Json.depth_lt_of_mem_object hm))

theorem Fits.of_allowed {d : Draft} {allowed allowed' : String → Prop} {v : Json}
    (hallowed : ∀ name, allowed name → allowed' name) (h : Fits d (.named allowed) v) :
    Fits d (.named allowed') v := by
  obtain ⟨named, rfl, hnames, hschemas⟩ := h
  exact ⟨named, rfl, fun name hname => hallowed name (hnames name hname), hschemas⟩

/-- The keywords that draft 06 does not have. -/
def newKeywords : List String :=
  ["$comment", "contentMediaType", "contentEncoding", "readOnly", "writeOnly", "if", "then", "else"]

theorem ownShape_draft06_of_mem {k : String} (hk : k ∈ newKeywords) :
    ownShape k .draft06 = .data fun _ => True := by
  have hall : ∀ k ∈ newKeywords, k ∉ ["$id", "$ref", "$schema", "examples", "exclusiveMaximum",
      "exclusiveMinimum", "contains", "propertyNames"] := by decide
  have hnot := hall k hk
  simp only [List.mem_cons, List.not_mem_nil, or_false, not_or] at hnot
  simp only [ownShape]
  split <;> simp_all

theorem ownShape_draft07_of_not_mem {k : String} (hk : k ∉ newKeywords) :
    ownShape k .draft07 = ownShape k .draft06 := by
  simp only [newKeywords, List.mem_cons, List.not_mem_nil, or_false, not_or] at hk
  simp only [ownShape]
  split <;> simp_all

/-- Draft 07 asks at least what draft 06 asks under the same keyword. -/
theorem fits_shapeOf_draft06 {k : String} {v : Json} :
    Fits .draft06 (shapeOf .draft07 k) v → Fits .draft06 (shapeOf .draft06 k) v := by
  have hlater : Draft.draft06 ≠ .draft04 := by decide
  have hown : Fits .draft06 (ownShape k .draft07) v → Fits .draft06 (ownShape k .draft06) v := by
    intro h
    by_cases hk : k ∈ newKeywords
    · rw [ownShape_draft06_of_mem hk]
      trivial
    · rwa [ownShape_draft07_of_not_mem hk] at h
  unfold shapeOf
  split
  all_goals first
    | exact hown
    | exact id
    | exact isCount_of_ne_draft04 hlater
    | exact isNameList_of_ne_draft04 hlater
    | exact isChoice_of_ne_draft04 hlater
    | exact Fits.of_allowed fun _ _ h => absurd h (by decide)

theorem isSchema_draft06_of_draft07 {v : Json} (h : IsSchema .draft07 v) : IsSchema .draft06 v := by
  induction hdepth : v.depth using Nat.strongRecOn generalizing v with
  | ind depth ih =>
      rcases isSchema_cases h with ⟨ms, rfl⟩ | ⟨_, b, rfl⟩
      · rw [isSchema_object] at h ⊢
        refine ⟨fun h => absurd h (by decide), fun m hm => fits_shapeOf_draft06 ?_⟩
        apply (h.2 m hm).of_schemas (by decide)
        intro w hw hschema
        have hmember := Json.depth_lt_of_mem_object hm
        exact ih w.depth (by omega) hschema rfl
      · exact isSchema_boolean.mpr (by decide)

end RamlSchema.Schema
