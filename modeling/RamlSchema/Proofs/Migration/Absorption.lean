import RamlSchema.Proofs.Migration.Keywords

/-!
# Migration after migration

A migrated schema has nothing in it that calls for a rewrite. The rewrites bring in names that other
rewrites look for, so this is said of an object as a whole: in the terms of the later drafts there is
no flag beside a bound, no identifier under its old name alone and no single allowed value that could
be a constant. No rewrite brings in a name under which schemas stand, so there is also no schema that
a first migration did not see. A second migration has only the name of the draft to change.
-/

namespace RamlSchema

namespace Migration

open Members

/-- The keywords of one schema, in the terms of the later drafts. -/
structure InLaterTerms (ms : Members) : Prop where
  id : ∀ s, find? "id" ms = some (.string s) → find? "$id" ms ≠ none
  enum : ∀ v, find? "type" ms ≠ none → find? "enum" ms = some (.array [v]) → find? "const" ms ≠ none
  maximum : ∀ b, find? "exclusiveMaximum" ms ≠ some (.boolean b)
  minimum : ∀ b, find? "exclusiveMinimum" ms ≠ some (.boolean b)

theorem BoundLookups.ne_boolean {flag bound : String} {before after : Members}
    (h : BoundLookups flag bound before after) (b : Bool) :
    find? flag after ≠ some (.boolean b) := by
  cases h with
  | kept hflag hbound hwhy =>
      rw [hflag]
      exact hwhy b
  | lifted n hold hnumber hflag hbound =>
      rw [hflag]
      simp
  | dropped c hold hwhy hflag hbound =>
      rw [hflag]
      simp

theorem inLaterTerms_migrateKeywords {ms : Members} (hnodup : (names ms).Nodup) :
    InLaterTerms (migrateKeywords ms) where
  id s hs := by
    cases migrateKeywords_ids hnodup with
    | kept hid hnew hwhy =>
        rw [hnew]
        exact hwhy s (hid ▸ hs)
    | renamed s' hold hfree hid hnew => simp [hnew]
  enum v htype henum := by
    rw [find?_migrateKeywords (by decide)] at htype
    cases migrateKeywords_enum hnodup with
    | kept hkept hconst hwhy =>
        rw [hconst]
        exact hwhy v htype (hkept ▸ henum)
    | collapsed w _ hold hfree hgone hconst => simp [hconst]
  maximum := (migrateKeywords_maximum hnodup).ne_boolean
  minimum := (migrateKeywords_minimum hnodup).ne_boolean

section EqSelf

variable {ms : Members}

theorem renameId_eq_self (h : ∀ s, find? "id" ms = some (.string s) → find? "$id" ms ≠ none) :
    renameId ms = ms := by
  unfold renameId
  split
  · next s hid =>
      have hhas : has "$id" ms = true := Option.isSome_iff_ne_none.mpr (h s hid)
      rw [if_pos hhas]
  · rfl

theorem collapseEnum_eq_self (h : ∀ v, find? "type" ms ≠ none →
    find? "enum" ms = some (.array [v]) → find? "const" ms ≠ none) : collapseEnum ms = ms := by
  unfold collapseEnum
  split
  · next hguard =>
      rw [Bool.and_eq_true, Bool.not_eq_true', has_eq_false_iff] at hguard
      obtain ⟨htype, hconst⟩ := hguard
      split
      · next v henum => exact absurd hconst (h v (Option.isSome_iff_ne_none.mp htype) henum)
      · rfl
  · rfl

theorem liftBound_eq_self {flag bound : String} (h : ∀ b, find? flag ms ≠ some (.boolean b)) :
    liftBound flag bound ms = ms := by
  unfold liftBound
  split
  · next b hflag => exact absurd hflag (h b)
  · rfl

theorem InLaterTerms.migrateKeywords_eq_self (h : InLaterTerms ms) : migrateKeywords ms = ms := by
  rw [migrateKeywords, renameId_eq_self h.id, collapseEnum_eq_self h.enum,
    liftBound_eq_self h.maximum, liftBound_eq_self h.minimum]

theorem InLaterTerms.put_schema (h : InLaterTerms ms) (v : Json) :
    InLaterTerms (put "$schema" v ms) := by
  have hfind : ∀ k, k ≠ "$schema" → find? k (put "$schema" v ms) = find? k ms :=
    fun k hk => find?_put_of_ne hk v ms
  constructor
  · rw [hfind "id" (by decide), hfind "$id" (by decide)]
    exact h.id
  · rw [hfind "type" (by decide), hfind "enum" (by decide), hfind "const" (by decide)]
    exact h.enum
  · rw [hfind "exclusiveMaximum" (by decide)]
    exact h.maximum
  · rw [hfind "exclusiveMinimum" (by decide)]
    exact h.minimum

end EqSelf

/-! ### Schemas that are left as they are -/

theorem migrateUnder_migrateUnder {k : String} {v : Json}
    (h : ∀ w ∈ schemasUnder k v, migrateSchema (migrateSchema w) = migrateSchema w) :
    migrateUnder k (migrateUnder k v) = migrateUnder k v := by
  cases hposition : position k with
  | schema =>
      have hone : ∀ v, migrateUnder k v = migrateSchema v := by
        simp only [migrateUnder, hposition, implies_true]
      rw [hone, hone]
      exact h v (by simp [schemasUnder, hposition])
  | schemas =>
      cases v with
      | array items =>
          have hlist : ∀ items, migrateUnder k (.array items) =
              .array (items.map migrateSchema) := by
            simp only [migrateUnder, hposition, implies_true]
          rw [hlist, hlist, List.map_map]
          refine congrArg Json.array (List.map_congr_left fun w hw => h w ?_)
          simpa only [schemasUnder, hposition] using hw
      | object ms =>
          have hone : ∀ ms, migrateUnder k (.object ms) = migrateSchema (.object ms) := by
            simp only [migrateUnder, hposition, implies_true]
          rw [hone, migrateSchema_object, hone, ← migrateSchema_object]
          exact h (.object ms) (by simp [schemasUnder, hposition])
      | _ => simp only [migrateUnder, hposition, migrateSchema]
  | named =>
      cases v with
      | object named =>
          have hnamed : ∀ named, migrateUnder k (.object named) =
              .object (mapValues (fun _ => migrateSchema) named) := by
            simp only [migrateUnder, hposition, implies_true]
          rw [hnamed, hnamed, mapValues_mapValues]
          refine congrArg Json.object (mapValues_congr fun m hm => h m.2 ?_)
          simp only [schemasUnder, hposition]
          exact List.mem_map_of_mem hm
      | _ => simp only [migrateUnder, hposition]
  | data => rw [migrateUnder_data hposition, migrateUnder_data hposition]

/-- An object that migration leaves as it is: its keywords, and the schemas under them. -/
structure IsMigrated (ms : Members) : Prop where
  keywords : InLaterTerms ms
  values : ∀ m ∈ ms, migrateUnder m.1 m.2 = m.2

theorem IsMigrated.eq_self {ms : Members} (h : IsMigrated ms) :
    migrateKeywords (mapValues migrateUnder ms) = ms := by
  rw [mapValues_eq_self h.values, h.keywords.migrateKeywords_eq_self]

theorem IsMigrated.put_schema {ms : Members} (h : IsMigrated ms) (uri : String) :
    IsMigrated (put "$schema" (.string uri) ms) where
  keywords := h.keywords.put_schema _
  values m hm := by
    rcases mem_put hm with rfl | hm
    · have hdata : position "$schema" = .data := by decide
      exact migrateUnder_data hdata _
    · exact h.values m hm

/-- The rewrites leave no value that is still to be migrated, as they bring in no keyword under which
schemas stand. -/
theorem isMigrated_migrateKeywords {ms : Members} (hnodup : (names ms).Nodup)
    (h : ∀ m ∈ ms, ∀ w ∈ schemasUnder m.1 m.2, migrateSchema (migrateSchema w) = migrateSchema w) :
    IsMigrated (migrateKeywords (mapValues migrateUnder ms)) where
  keywords := inLaterTerms_migrateKeywords (nodup_names_mapValues hnodup)
  values := by
    have hnodup' : (names (mapValues migrateUnder ms)).Nodup := nodup_names_mapValues hnodup
    rw [forall_mem_iff_forall_find? (p := fun k v => migrateUnder k v = v)
      (nodup_names_migrateKeywords hnodup')]
    intro k v hfind
    by_cases hk : k ∈ rewrittenNames
    · have hdata : ∀ k ∈ rewrittenNames, position k = .data := by decide
      exact migrateUnder_data (hdata k hk) v
    · rw [find?_migrateKeywords hk, find?_mapValues, Option.map_eq_some_iff] at hfind
      obtain ⟨w, hw, rfl⟩ := hfind
      exact migrateUnder_migrateUnder (h _ (mem_of_find? hw))

theorem migrateSchema_migrateSchema {s : Json} (hnames : s.HasDistinctNames) :
    migrateSchema (migrateSchema s) = migrateSchema s := by
  induction s using schemaInduction with
  | other v hobject => rw [migrateSchema_of_not_object hobject, migrateSchema_of_not_object hobject]
  | object ms ih =>
      obtain ⟨hnodup, hvalues⟩ := Json.hasDistinctNames_object.mp hnames
      have hmigrated := isMigrated_migrateKeywords hnodup fun m hm w hw =>
        ih m hm w hw (hasDistinctNames_of_mem_schemasUnder (hvalues m hm) hw)
      rw [migrateSchema_object, migrateSchema_object, hmigrated.eq_self]

end Migration

open Members Migration

/-- **A later migration absorbs an earlier one.** Whatever draft a value was migrated to before, the
members and their order are those of one migration. -/
theorem migrate_migrate {v : Json} (hnames : v.HasDistinctNames) (d : Draft) {e : Draft}
    (he : e ≠ .draft04) : migrate (migrate v d) e = migrate v e := by
  by_cases hd : d = .draft04
  · rw [hd, migrate]
  cases v with
  | object ms =>
      obtain ⟨hnodup, hvalues⟩ := Json.hasDistinctNames_object.mp hnames
      have hmigrated := isMigrated_migrateKeywords hnodup fun m hm w hw =>
        migrateSchema_migrateSchema (hasDistinctNames_of_mem_schemasUnder (hvalues m hm) hw)
      rw [migrate_object hd, migrate_object he, (hmigrated.put_schema _).eq_self, put_put,
        migrate_object he]
  | _ => exact congrArg (migrate · e) (migrate_of_not_object rfl d)

/-- Ill-shaped in places: an identifier that is no text, flags without a bound, and a flag with a
bound of its own name. -/
def tangledSchema : Json :=
  .object [
    ("id", .string "shapes/tangled"),
    ("exclusiveMaximum", .boolean true),
    ("maximum", .number (.integer 9)),
    ("type", .string "object"),
    ("enum", .array [.array [.object [("id", .string "data")]]]),
    ("items", .array [
      .object [("id", .null), ("exclusiveMinimum", .boolean true), ("minimum", .string "0")],
      .object [("type", .null), ("enum", .array [.null]), ("$id", .null), ("id", .string "kept")]]),
    ("properties", .array [.object [("id", .string "data")]])]

theorem migrate_migrate_tangledSchema :
    migrate tangledSchema .draft07 ≠ migrate tangledSchema .draft06 ∧
      migrate (migrate tangledSchema .draft07) .draft06 = migrate tangledSchema .draft06 := by
  have hnames : tangledSchema.HasDistinctNames := by
    simp [tangledSchema, Json.HasDistinctNames, Json.ItemsHaveDistinctNames,
      Json.MembersHaveDistinctNames]
  exact ⟨by decide, migrate_migrate hnames .draft07 (by decide)⟩

end RamlSchema
