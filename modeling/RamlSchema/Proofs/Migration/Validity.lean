import RamlSchema.Proofs.Migration.Upgrade
import RamlSchema.Proofs.Validity

/-!
# Migrated schemas are valid

A schema of draft 04 becomes a schema of the draft that it is migrated to. Draft 04 asks nothing
under the names that only the later drafts know, and less under some that all drafts share, so a
schema has to be `Ready` wherever one stands in it: what it has under such names must be legal in the
later drafts already. All else follows from the shapes of the two drafts and from what the rewrites do
to the names they change.
-/

namespace RamlSchema

namespace Migration

open Members Schema

/-- Under the names where a later draft asks more than draft 04, a schema has what that draft wants.
-/
structure Ready (ms : Members) : Prop where
  noLaterKeyword : ∀ k ∈ laterKeywords, k ∉ names ms
  examples : ∀ v, find? "examples" ms = some v → IsArray v
  references : ∀ k ∈ ["id", "$ref"], ∀ v, find? k ms = some v → IsReference v
  patterns : ∀ named : Members, find? "patternProperties" ms = some (.object named) →
    ∀ name ∈ named.names, Pattern.isPattern name = true

theorem ready_of_not_mem {ms : Members}
    (h : ∀ k ∈ laterKeywords ++ ["examples", "id", "$ref", "patternProperties"], k ∉ names ms) :
    Ready ms := by
  have hnone : ∀ k ∈ ["examples", "id", "$ref", "patternProperties"], find? k ms = none :=
    fun k hk => find?_eq_none_iff.mpr (h k (List.mem_append_right _ hk))
  refine ⟨fun k hk => h k (List.mem_append_left _ hk), fun v hv => ?_, fun k hk v hv => ?_,
    fun named hnamed => ?_⟩
  · simp [hnone "examples" (by decide)] at hv
  · have hmem : k ∈ ["examples", "id", "$ref", "patternProperties"] := by
      simp only [List.mem_cons, List.not_mem_nil, or_false] at hk
      rcases hk with rfl | rfl <;> decide
    simp [hnone k hmem] at hv
  · simp [hnone "patternProperties" (by decide)] at hnamed

/-- What names a draft, names it by a URI. -/
def NamesUri (ms : Members) : Prop :=
  ∀ v, find? "$schema" ms = some v → IsUri v

/-! ### The keywords of one schema -/

theorem BoundLookups.areNumbers {flag bound : String} {before after : Members}
    (h : BoundLookups flag bound before after)
    (hflag : ∀ v, find? flag before = some v → IsFlag v)
    (hbound : ∀ v, find? bound before = some v → IsNumber v) :
    (∀ v, find? flag after = some v → IsNumber v) ∧
      ∀ v, find? bound after = some v → IsNumber v := by
  cases h with
  | kept hf hb hwhy =>
      refine ⟨fun v hv => ?_, fun v hv => hbound v (hb ▸ hv)⟩
      obtain ⟨b, rfl⟩ := hflag v (hf ▸ hv)
      exact absurd (hf ▸ hv) (hwhy b)
  | lifted n _ _ hf hb =>
      refine ⟨fun v hv => ?_, fun v hv => ?_⟩
      · exact ⟨n, Option.some.inj (hv.symm.trans hf)⟩
      · simp [hb] at hv
  | dropped b _ _ hf hb =>
      refine ⟨fun v hv => ?_, fun v hv => hbound v (hb ▸ hv)⟩
      simp [hf] at hv

section Keywords

variable {d : Draft} (hd : d ≠ .draft04) {ms : Members} (hnodup : (names ms).Nodup)
  (hs : IsSchema .draft04 (.object ms)) (hready : Ready ms)
  (hunder : ∀ m ∈ ms, ∀ w ∈ schemasUnder m.1 m.2, IsSchema .draft04 w →
    IsSchema d (migrateSchema w))

include hs in
theorem fits_of_find? {k : String} {v : Json} (hfind : find? k ms = some v) :
    Fits .draft04 (shapeOf .draft04 k) v :=
  (isSchema_object.mp hs).2 _ (mem_of_find? hfind)

include hd hs hready hunder in
theorem fits_migrateUnder {k : String} {v : Json} (hk : k ∉ narrowedKeywords)
    (hfind : find? k (mapValues migrateUnder ms) = some v) : Fits d (shapeOf d k) v := by
  rw [find?_mapValues, Option.map_eq_some_iff] at hfind
  obtain ⟨w, hw, rfl⟩ := hfind
  have hpatterns : k = "patternProperties" → ∀ named : Members, w = .object named →
      ∀ name ∈ named.names, Pattern.isPattern name = true := by
    intro hk named hnamed
    exact hready.patterns named (hk ▸ hnamed ▸ hw)
  exact (upgrade_shapeOf hd hk).fits hd (fits_of_find? hs hw) (hunder _ (mem_of_find? hw)) hpatterns

include hd hready in
theorem fits_of_mem_narrowedKeywords {k : String} {v : Json} (hk : k ∈ narrowedKeywords)
    (hschema : k ≠ "$schema") (hflag : k ∉ ["exclusiveMaximum", "exclusiveMinimum"])
    (hfind : find? k (mapValues migrateUnder ms) = some v) : Fits d (shapeOf d k) v := by
  have hk : k ∈ laterKeywords ∨ k = "examples" ∨ k = "$ref" := by
    simp only [narrowedKeywords, List.mem_append, List.mem_cons, List.not_mem_nil] at hk hflag
    simp_all
  rcases hk with hk | rfl | rfl
  · have hname := mem_names_of_mem (mem_of_find? hfind)
    rw [names_mapValues] at hname
    exact absurd hname (hready.noLaterKeyword k hk)
  · rw [find?_mapValues_migrateUnder (by decide)] at hfind
    have hexamples := hready.examples v hfind
    cases d with
    | draft04 => exact absurd rfl hd
    | _ => exact hexamples
  · rw [find?_mapValues_migrateUnder (by decide)] at hfind
    have hreference := hready.references "$ref" (by decide) v hfind
    cases d with
    | draft04 => exact absurd rfl hd
    | _ => exact hreference

include hnodup hs in
theorem areNumbers_migrateKeywords :
    ∀ k ∈ ["exclusiveMaximum", "maximum", "exclusiveMinimum", "minimum"], ∀ v,
      find? k (migrateKeywords (mapValues migrateUnder ms)) = some v → IsNumber v := by
  have hnodup' : (names (mapValues migrateUnder ms)).Nodup := nodup_names_mapValues hnodup
  have hdata : ∀ {k}, position k = .data → ∀ v, find? k (mapValues migrateUnder ms) = some v →
      Fits .draft04 (shapeOf .draft04 k) v := by
    intro k hposition v hfind
    rw [find?_mapValues_migrateUnder hposition] at hfind
    exact fits_of_find? hs hfind
  have hmaximum := (migrateKeywords_maximum hnodup').areNumbers (hdata (by decide))
    (hdata (by decide))
  have hminimum := (migrateKeywords_minimum hnodup').areNumbers (hdata (by decide))
    (hdata (by decide))
  intro k hk
  simp only [List.mem_cons, List.not_mem_nil, or_false] at hk
  rcases hk with rfl | rfl | rfl | rfl
  · exact hmaximum.1
  · exact hmaximum.2
  · exact hminimum.1
  · exact hminimum.2

include hnodup hready in
theorem isReference_of_find?_migrateKeywords {v : Json}
    (hfind : find? "$id" (migrateKeywords (mapValues migrateUnder ms)) = some v) :
    IsReference v := by
  have hnodup' : (names (mapValues migrateUnder ms)).Nodup := nodup_names_mapValues hnodup
  cases migrateKeywords_ids hnodup' with
  | kept hold hnew hwhy =>
      have hname := mem_names_of_mem (mem_of_find? (hnew ▸ hfind))
      rw [names_mapValues] at hname
      exact absurd hname (hready.noLaterKeyword "$id" (by decide))
  | renamed s hold hfree hgone hnew =>
      rw [find?_mapValues_migrateUnder (by decide)] at hold
      obtain rfl : .string s = v := Option.some.inj (hnew.symm.trans hfind)
      exact hready.references "id" (by decide) _ hold

include hd hnodup hs hready hunder in
theorem fits_migrateKeywords {k : String} {v : Json} (hk : k ≠ "$schema")
    (hfind : find? k (migrateKeywords (mapValues migrateUnder ms)) = some v) :
    Fits d (shapeOf d k) v := by
  have hnodup' : (names (mapValues migrateUnder ms)).Nodup := nodup_names_mapValues hnodup
  by_cases hrewritten : k ∈ rewrittenNames
  · have hnumbers := areNumbers_migrateKeywords hnodup hs
    obtain ⟨hexclusiveMaximum, hexclusiveMinimum⟩ := shapeOf_exclusive hd
    simp only [rewrittenNames, List.mem_cons, List.not_mem_nil, or_false] at hrewritten
    rcases hrewritten with rfl | rfl | rfl | rfl | rfl | rfl | rfl | rfl
    · cases d with
      | draft04 => exact absurd rfl hd
      | _ => trivial
    · have hreference := isReference_of_find?_migrateKeywords hnodup hready hfind
      cases d with
      | draft04 => exact absurd rfl hd
      | _ => exact hreference
    · cases migrateKeywords_enum hnodup' with
      | kept henum _ _ =>
          exact fits_migrateUnder hd hs hready hunder (by decide) (henum ▸ hfind)
      | collapsed _ _ _ _ henum _ => simp [henum] at hfind
    · rw [shapeOf_const]
      trivial
    · rw [hexclusiveMaximum]
      exact hnumbers _ (by decide) v hfind
    · exact hnumbers "maximum" (by decide) v hfind
    · rw [hexclusiveMinimum]
      exact hnumbers _ (by decide) v hfind
    · exact hnumbers "minimum" (by decide) v hfind
  · rw [find?_migrateKeywords hrewritten] at hfind
    by_cases hnarrowed : k ∈ narrowedKeywords
    · refine fits_of_mem_narrowedKeywords hd hready hnarrowed hk (fun hflag => ?_) hfind
      refine hrewritten ?_
      simp only [List.mem_cons, List.not_mem_nil, or_false] at hflag
      rcases hflag with rfl | rfl <;> decide
    · exact fits_migrateUnder hd hs hready hunder hnarrowed hfind

end Keywords

/-! ### Whole schemas -/

/-- Below the root a schema keeps what names its draft, and so that has to be legal as it is. -/
theorem isSchema_migrateSchema {d : Draft} (hd : d ≠ .draft04) {s : Json}
    (hnames : s.HasDistinctNames) (hs : IsSchema .draft04 s)
    (hready : ∀ ms, HasSchema s (.object ms) → Ready ms ∧ NamesUri ms) :
    IsSchema d (migrateSchema s) := by
  induction s using schemaInduction with
  | other v hobject =>
      obtain ⟨ms, rfl⟩ := isSchema_draft04 hs
      exact absurd hobject (by simp [Json.isObject])
  | object ms ih =>
      obtain ⟨hnodup, hvalues⟩ := Json.hasDistinctNames_object.mp hnames
      obtain ⟨hroot, huri⟩ := hready ms (.self _)
      have hunder : ∀ m ∈ ms, ∀ w ∈ schemasUnder m.1 m.2, IsSchema .draft04 w →
          IsSchema d (migrateSchema w) := by
        intro m hm w hw hschema
        have hdistinct := hasDistinctNames_of_mem_schemasUnder (hvalues m hm) hw
        exact ih m hm w hw hdistinct hschema fun ms' h => hready ms' (.under hm hw h)
      have hnodup' : (names (mapValues migrateUnder ms)).Nodup := nodup_names_mapValues hnodup
      rw [migrateSchema_object, isSchema_object, forall_mem_iff_forall_find?
        (p := fun k v => Fits d (shapeOf d k) v) (nodup_names_migrateKeywords hnodup')]
      refine ⟨fun h => absurd h hd, fun k v hfind => ?_⟩
      by_cases hk : k = "$schema"
      · subst hk
        rw [find?_migrateKeywords (by decide), find?_mapValues_migrateUnder (by decide)] at hfind
        have hv := huri v hfind
        cases d with
        | draft04 => exact absurd rfl hd
        | _ => exact hv
      · exact fits_migrateKeywords hd hnodup hs hroot hunder hk hfind

theorem isUri_metaSchemaUri (d : Draft) : Uri.isUri d.metaSchemaUri = true := by
  cases d <;> decide +kernel

theorem ofMetaSchemaUri?_metaSchemaUri (d : Draft) :
    Draft.ofMetaSchemaUri? d.metaSchemaUri = some d := by
  cases d <;> decide +kernel

theorem declaredDraft_migrate {d : Draft} (hd : d ≠ .draft04) (ms : Members) :
    declaredDraft (migrate (.object ms) d) = .ok d := by
  have hmember : (migrate (.object ms) d).member? "$schema" = some (.string d.metaSchemaUri) := by
    rw [migrate_object hd]
    exact find?_put_self _ _ _
  rw [declaredDraft, hmember]
  simp only [ofMetaSchemaUri?_metaSchemaUri]

theorem isSchema_migrate {d : Draft} (hd : d ≠ .draft04) {s : Json}
    (hnames : s.HasDistinctNames) (hs : IsSchema .draft04 s)
    (hready : ∀ ms, HasSchema s (.object ms) → Ready ms)
    (hbelow : ∀ ms, HasSubschema s (.object ms) → NamesUri ms) :
    IsSchema d (migrate s d) := by
  obtain ⟨ms, rfl⟩ := isSchema_draft04 hs
  obtain ⟨hnodup, hvalues⟩ := Json.hasDistinctNames_object.mp hnames
  have hunder : ∀ m ∈ ms, ∀ w ∈ schemasUnder m.1 m.2, IsSchema .draft04 w →
      IsSchema d (migrateSchema w) := by
    intro m hm w hw hschema
    have hdistinct := hasDistinctNames_of_mem_schemasUnder (hvalues m hm) hw
    refine isSchema_migrateSchema hd hdistinct hschema fun ms' h => ⟨?_, ?_⟩
    · exact hready ms' (.under hm hw h)
    · exact hbelow ms' ⟨ms, m.1, m.2, w, rfl, hm, hw, h⟩
  have hnodup' : (names (mapValues migrateUnder ms)).Nodup := nodup_names_mapValues hnodup
  rw [migrate_object hd, isSchema_object, forall_mem_iff_forall_find?
    (p := fun k v => Fits d (shapeOf d k) v)
    (nodup_names_put (nodup_names_migrateKeywords hnodup') _ _)]
  refine ⟨fun h => absurd h hd, fun k v hfind => ?_⟩
  by_cases hk : k = "$schema"
  · subst hk
    rw [find?_put_self, Option.some.injEq] at hfind
    have huri : IsUri v := ⟨_, hfind.symm, isUri_metaSchemaUri d⟩
    cases d with
    | draft04 => exact absurd rfl hd
    | _ => exact huri
  · rw [find?_put_of_ne hk] at hfind
    exact fits_migrateKeywords hd hnodup hs (hready ms (.self _)) hunder hk hfind

end Migration

open Members Migration

/-- **A schema of draft 04 that is ready to be migrated is, once migrated, a valid schema of the
draft it is migrated to.** -/
theorem validate_migrate {s : Json} (hnames : s.HasDistinctNames)
    (hvalid : validate s = .ok ()) (hdraft : declaredDraft s = .ok .draft04)
    (hready : ∀ ms, HasSchema s (.object ms) → Ready ms)
    (hbelow : ∀ ms, HasSubschema s (.object ms) → NamesUri ms) {d : Draft} (hd : d ≠ .draft04) :
    validate (migrate s d) = .ok () ∧ declaredDraft (migrate s d) = .ok d := by
  have hs : Schema.IsSchema .draft04 s := by
    obtain ⟨e, he, hvalidAs⟩ := (validate_eq_ok_iff_validateAs s).mp hvalid
    obtain rfl : e = .draft04 := Except.ok.inj (he.symm.trans hdraft)
    exact (validateAs_eq_ok_iff .draft04 hnames).mp hvalidAs
  have hdeclared : declaredDraft (migrate s d) = .ok d := by
    obtain ⟨ms, rfl⟩ := Schema.isSchema_draft04 hs
    exact declaredDraft_migrate hd ms
  refine ⟨?_, hdeclared⟩
  rw [validate_eq_ok_iff_validateAs]
  refine ⟨d, hdeclared, ?_⟩
  rw [validateAs_eq_ok_iff d (hasDistinctNames_migrate hnames d)]
  exact isSchema_migrate hd hnames hs hready hbelow

/-- A level below three, in a schema with an identifier and a schema that is negated. -/
def levelSchema : Json :=
  .object [
    ("$schema", .string "http://json-schema.org/draft-04/schema#"),
    ("id", .string "readings/level"),
    ("properties", .object [
      ("level", .object [
        ("type", .string "integer"),
        ("maximum", .number (.integer 3)),
        ("exclusiveMaximum", .boolean true),
        ("enum", .array [.number (.integer 2)])])]),
    ("not", .object [
      ("patternProperties", .object [
        ("^x", .object [("additionalItems", .boolean false)])])])]

theorem objects_below_levelSchema {ms : Members} (h : HasSubschema levelSchema (.object ms)) :
    ms = [("type", .string "integer"), ("maximum", .number (.integer 3)),
        ("exclusiveMaximum", .boolean true), ("enum", .array [.number (.integer 2)])] ∨
      ms = [("patternProperties", .object [
        ("^x", .object [("additionalItems", .boolean false)])])] ∨
      ms = [("additionalItems", .boolean false)] := by
  have hflag : ¬HasSubschema (.boolean false) (.object ms) := by
    intro h
    obtain ⟨_, _, _, _, hflag, _⟩ := h
    cases hflag
  simpa [levelSchema, hasSubschema_object, hasSchema_iff, schemasUnder, position, schemaKeywords,
    schemasKeywords, namedKeywords, hflag] using h

theorem validate_migrate_levelSchema :
    validate (migrate levelSchema .draft07) = .ok () ∧
      declaredDraft (migrate levelSchema .draft07) = .ok .draft07 := by
  have hnames : levelSchema.HasDistinctNames := by
    simp [levelSchema, Json.HasDistinctNames, Json.ItemsHaveDistinctNames,
      Json.MembersHaveDistinctNames]
  have hvalid : validate levelSchema = .ok () := by rfl
  have hdraft : declaredDraft levelSchema = .ok .draft04 := by rfl
  have hready : ∀ ms : Members, HasSchema levelSchema (.object ms) → Ready ms := by
    intro ms h
    rcases hasSchema_iff.mp h with hroot | h
    · obtain rfl := Json.object.inj hroot
      refine ⟨by decide, by simp [find?], ?_, by simp [find?]⟩
      intro k hk v hv
      simp only [List.mem_cons, List.not_mem_nil, or_false] at hk
      rcases hk with rfl | rfl
      · exact ⟨_, Option.some.inj hv.symm, rfl⟩
      · cases hv
    rcases objects_below_levelSchema h with rfl | rfl | rfl
    · exact ready_of_not_mem (by decide)
    · refine ⟨by decide, by simp [find?], ?_, fun named hnamed name hname => ?_⟩
      · intro k hk v hv
        simp only [List.mem_cons, List.not_mem_nil, or_false] at hk
        rcases hk with rfl | rfl <;> cases hv
      · obtain rfl := Json.object.inj (Option.some.inj hnamed)
        rw [names_cons, names_nil, List.mem_singleton] at hname
        subst hname
        rfl
    · exact ready_of_not_mem (by decide)
  have hbelow : ∀ ms : Members, HasSubschema levelSchema (.object ms) → NamesUri ms := by
    intro ms h
    rcases objects_below_levelSchema h with rfl | rfl | rfl <;> simp [NamesUri, Members.find?]
  exact validate_migrate hnames hvalid hdraft hready hbelow (by decide)

end RamlSchema
