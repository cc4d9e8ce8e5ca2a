import RamlSchema.MetaSchema.Later
import RamlSchema.MetaSchema.Draft04
import RamlSchema.Proofs.MetaSchema.Nodes

/-!
# What the nodes with schemas in them decide

A node that refers to the whole meta-schema is checked with the claim for smaller values at hand. The
steps are counted from the value under a keyword: four for each of its levels and three more, which
are what is left of the steps of the object around it.
-/

namespace RamlSchema.MetaSchema

open Schema

/-- For values of less than some depth, a check of the whole meta-schema decides what a schema is. -/
def DecidesBelow (m : MetaSchema) (d : Draft) (bound : Nat) : Prop :=
  ∀ v : Json, v.HasDistinctNames → v.depth < bound → ∀ place n, 4 * (v.depth + 1) ≤ n →
    Decides (check m n (m.define .root) place v) (IsSchema d v)

variable {m : MetaSchema} {d : Draft} {bound n : Nat} {place : List Step} {v : Json}

theorem DecidesBelow.reference (hbelow : DecidesBelow m d bound) (hnames : v.HasDistinctNames)
    (hdepth : v.depth < bound) (hn : 4 * (v.depth + 1) < n) :
    Decides (check m n (.reference .root) place v) (IsSchema d v) := by
  obtain ⟨k, rfl⟩ : ∃ k, n = k + 1 := ⟨n - 1, by omega⟩
  exact decides_reference (hbelow v hnames hdepth place k (by omega))

/-- Under a member the value has one level less, so four steps fewer are enough. -/
theorem DecidesBelow.reference_member (hbelow : DecidesBelow m d bound) {ms : Members}
    (hnames : (Json.object ms).HasDistinctNames) (hdepth : (Json.object ms).depth < bound)
    (hn : 4 * (Json.object ms).depth < n) {entry : String × Json} (hentry : entry ∈ ms) :
    Decides (check m n (.reference .root) place entry.2) (IsSchema d entry.2) := by
  have hlt := Json.depth_lt_of_mem_object hentry
  have hentryNames := (Json.hasDistinctNames_object.mp hnames).2 entry hentry
  exact hbelow.reference hentryNames (by omega) (by omega)

theorem DecidesBelow.reference_item (hbelow : DecidesBelow m d bound) {vs : List Json}
    (hnames : (Json.array vs).HasDistinctNames) (hdepth : (Json.array vs).depth < bound)
    (hn : 4 * (Json.array vs).depth < n) {w : Json} (hw : w ∈ vs) :
    Decides (check m n (.reference .root) place w) (IsSchema d w) := by
  have hlt := Json.depth_lt_of_mem_array hw
  have hwNames := Json.hasDistinctNames_array.mp hnames w hw
  exact hbelow.reference hwNames (by omega) (by omega)

section Shapes

variable (hm : Reads m d) (hbelow : DecidesBelow m d bound) (hnames : v.HasDistinctNames)
  (hdepth : v.depth < bound)
include hbelow hnames hdepth

theorem decides_schemaList_node (hn : 4 * v.depth < n) :
    Decides (check m (n + 1) .schemaList place v) (Fits d .schemaList v) := by
  refine decides_keywords_type ?_ fun harray => ?_
  · intro h
    obtain ⟨items, hv, _⟩ := h
    exact isOfKind_array.mpr ⟨items, hv⟩
  · obtain ⟨items, rfl⟩ := isOfKind_array.mp harray
    refine (decides_inOrder_cons decides_minItems_one fun _ =>
      decides_inOrder_singleton (decides_items fun w hw _ =>
        hbelow.reference_item hnames hdepth hn hw)).congr ?_
    simp [Fits]

theorem decides_namedSchemas (hn : 4 * (v.depth + 1) ≤ n) :
    Decides (check m (n + 3) .namedSchemas place v) (Fits d (.named fun _ => True) v) := by
  refine decides_keywords_type ?_ fun hobject => ?_
  · intro h
    obtain ⟨named, hv, _⟩ := h
    exact isOfKind_object.mpr ⟨named, hv⟩
  · obtain ⟨named, rfl⟩ := isOfKind_object.mp hobject
    refine (decides_inOrder_singleton (decides_additionalProperties fun entry hentry _ =>
      hbelow.reference_member hnames hdepth (by omega) hentry)).congr ?_
    simp [Fits]

theorem decides_patternSchemas (hn : 4 * (v.depth + 1) ≤ n) :
    Decides (check m (n + 3) Later.patternSchemas place v)
      (Fits d (.named fun name => Pattern.isPattern name = true) v) := by
  refine decides_keywords_type ?_ fun hobject => ?_
  · intro h
    obtain ⟨named, hv, _⟩ := h
    exact isOfKind_object.mpr ⟨named, hv⟩
  · obtain ⟨named, rfl⟩ := isOfKind_object.mp hobject
    have hpattern : ∀ name, Decides (check m (n + 2) (.keywords [.format .regex]) place
        (.string name)) (Pattern.isPattern name = true) := fun name =>
      decides_keywords (decides_inOrder_singleton decides_format)
    refine (decides_inOrder_cons (decides_additionalProperties fun entry hentry _ =>
      hbelow.reference_member hnames hdepth (by omega) hentry) fun _ =>
        decides_inOrder_singleton (decides_propertyNames hpattern)).congr ?_
    simp [Fits, and_comm]

theorem decides_schemaOrFlag (hn : 4 * (v.depth + 1) ≤ n) :
    Decides (check m (n + 3) Draft04.schemaOrFlag place v) (Fits d .flagOrSchema v) :=
  decides_keywords (decides_inOrder_singleton
    (decides_anyOf_two decides_flag (hbelow.reference hnames hdepth (by omega))))

include hm

theorem decides_schemaList (hn : 4 * v.depth < n) :
    Decides (check m (n + 2) (.reference .schemaList) place v) (Fits d .schemaList v) := by
  refine decides_reference ?_
  rw [hm.schemaList]
  exact decides_schemaList_node hbelow hnames hdepth hn

theorem decides_schemaOrList (hn : 4 * (v.depth + 1) ≤ n) :
    Decides (check m (n + 3) .schemaOrList place v) (Fits d .schemaOrList v) :=
  decides_keywords (decides_inOrder_singleton
    (decides_anyOf_two (hbelow.reference hnames hdepth (by omega))
      (decides_schemaList hm hbelow hnames hdepth (by omega))))

theorem decides_dependencyTable (hn : 4 * (v.depth + 1) ≤ n) :
    Decides (check m (n + 3) .dependencyTable place v) (Fits d .dependencies v) := by
  refine decides_keywords_type ?_ fun hobject => ?_
  · intro h
    obtain ⟨named, hv, _⟩ := h
    exact isOfKind_object.mpr ⟨named, hv⟩
  · obtain ⟨named, rfl⟩ := isOfKind_object.mp hobject
    obtain ⟨k, rfl⟩ : ∃ k, n = k + 4 := ⟨n - 4, by omega⟩
    refine (decides_inOrder_singleton (decides_additionalProperties
      (p := fun w => IsSchema d w ∨ IsNameList d w) fun entry hentry _ => ?_)).congr
        (by simp [Fits])
    exact decides_keywords (decides_inOrder_singleton
      (decides_anyOf_two (hbelow.reference_member hnames hdepth (by omega) hentry)
        (decides_nameList hm)))

end Shapes

end RamlSchema.MetaSchema
