import RamlSchema.Proofs.Fix.Shapes
import RamlSchema.Proofs.Validity

/-!
# Fixing a valid schema

A schema of draft 04 without marks is of draft 04 when it is fixed, but it need not be valid any
more. It is, exactly if everything in it keeps its shape.
-/

namespace RamlSchema

open Members Schema Json VendorName ExampleList

/-- Draft 04 asks for nothing under the keyword for examples. -/
theorem fits_listed_iff {k : String} {v : Json} :
    Fits .draft04 (shapeOf .draft04 k) (listed k v) ↔ Fits .draft04 (shapeOf .draft04 k) v := by
  by_cases hk : k = "examples"
  · subst hk
    exact iff_of_true trivial trivial
  · rw [listed_eq_self (.inl hk)]

/-- **A schema of draft 04 without marks is still one when it is fixed, exactly if everything in it
keeps its shape.** -/
theorem isSchema_fixSchema_iff {v : Json} (hplain : IsPlain v) (hv : IsSchema .draft04 v) :
    IsSchema .draft04 (fixSchema v) ↔ KeepsShapes v := by
  induction hdepth : v.depth using Nat.strongRecOn generalizing v with
  | ind depth ih =>
      obtain ⟨ms, rfl⟩ := isSchema_draft04 hv
      obtain ⟨hflags, hfits⟩ := isSchema_object.mp hv
      have hflags' : FlagsHaveBounds (mapValues (fun k v => listed k (fixSchema v)) ms) := by
        unfold FlagsHaveBounds
        rw [names_mapValues]
        exact hflags rfl
      rw [hplain.fixSchema_object (not_file_of_isSchema hv), isSchema_object,
        and_iff_right fun _ => hflags', mapValues, List.forall_mem_map, KeepsShapes,
        eachMember_object]
      refine forall₂_congr fun m hm => fits_listed_iff.trans ?_
      refine keepsFitting_shapeOf (hplain.member hm) (hfits m hm) fun w hw hschema => ?_
      have hmember := depth_lt_of_mem_object hm
      have hinside := depth_le_of_mem_schemasIn hw
      exact ih w.depth (by omega) ((hplain.member hm).of_mem_schemasIn hw) hschema rfl

theorem declaredDraft_fixSchema_of_isPlain {ms : Members} (hplain : IsPlain (.object ms))
    (hfile : ("type", .string "file") ∉ ms) {d : Draft} (h : declaredDraft (.object ms) = .ok d) :
    declaredDraft (fixSchema (.object ms)) = .ok d := by
  have hmember : (fixSchema (.object ms)).member? "$schema" =
      (find? "$schema" ms).map fun v => listed "$schema" (fixSchema v) := by
    rw [hplain.fixSchema_object hfile, Json.member?, find?_mapValues]
  rw [declaredDraft_eq_ok_iff] at h ⊢
  rw [hmember]
  rcases h with ⟨hnone, hd⟩ | ⟨uri, huri, hd⟩
  · exact .inl ⟨Option.map_eq_none_iff.mpr hnone, hd⟩
  · exact .inr ⟨uri, Option.map_eq_some_iff.mpr ⟨_, huri, rfl⟩, hd⟩

/-- **When fixing keeps a schema valid.** A valid schema of draft 04 without marks is valid when it is
fixed, exactly if no mapping of schemas in it has one under `examples` (or has only names there, where
it says what properties depend on), and no two allowed values in it become the same. -/
theorem validate_fixSchema_iff {v : Json} (hnames : v.HasDistinctNames)
    (hvalid : validate v = .ok ()) (hdraft : declaredDraft v = .ok .draft04)
    (hmark : anyObject hasMarked v = false) :
    validate (fixSchema v) = .ok () ↔
      ∀ ms, Within .draft04 v ms → ∀ m ∈ ms, KeepsShape m.1 m.2 := by
  have hplain : IsPlain v := ⟨hnames, hmark⟩
  have hschema : IsSchema .draft04 v := by
    obtain ⟨d, hd, hschema⟩ := (validate_eq_ok_iff hnames).mp hvalid
    obtain rfl := Except.ok.inj (hd.symm.trans hdraft)
    exact hschema
  have hdraft' : declaredDraft (fixSchema v) = .ok .draft04 := by
    obtain ⟨ms, rfl⟩ := isSchema_draft04 hschema
    exact declaredDraft_fixSchema_of_isPlain hplain (not_file_of_isSchema hschema) hdraft
  rw [validate_eq_ok_iff (hasDistinctNames_fixSchema hnames), hdraft']
  refine Iff.trans ?_ (isSchema_fixSchema_iff hplain hschema)
  constructor
  · rintro ⟨d, hd, h⟩
    obtain rfl := Except.ok.inj hd
    exact h
  · exact fun h => ⟨_, rfl, h⟩

/-- Examples under the keyword, in the data, and as names that depend on each other. -/
def measureSchema : Json :=
  .object [
    ("$schema", .string "http://json-schema.org/draft-04/schema#"),
    ("type", .array [.string "number", .string "object"]),
    ("examples", .object [("small", .number (.integer 1)), ("large", .number (.integer 9))]),
    ("enum", .array [
      .number (.integer 1),
      .object [("examples", .object [("type", .string "file")])],
      .object [("examples", .array [.object [("type", .string "file")]])]]),
    ("properties", .object [("type", .object [("examples", .object [("unit", .string "m")])])]),
    ("dependencies", .object [
      ("examples", .object [("title", .string "unit"), ("format", .string "size")]),
      ("size", .array [.string "unit"])])]

/-- A property that is called like the keyword for examples. -/
def exampledSchema : Json :=
  .object [("properties", .object [("examples", .object [("type", .string "string")])])]

theorem hasDistinctNames_exampledSchema : exampledSchema.HasDistinctNames := by
  simp [exampledSchema, HasDistinctNames, MembersHaveDistinctNames]

theorem validate_fixSchema_measureSchema :
    (∀ ms, Within .draft04 measureSchema ms → ∀ m ∈ ms, KeepsShape m.1 m.2) ∧
      validate (fixSchema exampledSchema) ≠ .ok () := by
  have hmeasure : measureSchema.HasDistinctNames := by
    simp [measureSchema, HasDistinctNames, ItemsHaveDistinctNames, MembersHaveDistinctNames]
  constructor
  · have hvalid : validate (fixSchema measureSchema) = .ok () := by rfl
    exact (validate_fixSchema_iff hmeasure (by rfl) (by rfl) (by rfl)).mp hvalid
  · intro h
    have hkeeps := (validate_fixSchema_iff hasDistinctNames_exampledSchema (by rfl) (by rfl)
      (by rfl)).mp h
    have hnames : "examples" ∉ names [("examples", .object [("type", .string "string")])] :=
      hkeeps _ (.self _) _ List.mem_cons_self
    exact absurd hnames (by decide)

/-- Fixing does not keep every valid schema of draft 04 valid. -/
theorem exists_validate_fixSchema_ne :
    ¬∀ v : Json, v.HasDistinctNames → validate v = .ok () → declaredDraft v = .ok .draft04 →
      anyObject hasMarked v = false → validate (fixSchema v) = .ok () := by
  intro h
  have hfixed : validate (fixSchema exampledSchema) ≠ .ok () := by decide
  exact hfixed (h exampledSchema hasDistinctNames_exampledSchema (by rfl) (by rfl) (by rfl))

end RamlSchema
