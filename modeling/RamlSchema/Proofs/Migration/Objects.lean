import RamlSchema.Proofs.Migration.Absorption
import RamlSchema.Proofs.Migration.Places

/-!
# Objects of a migrated schema

Whatever value is migrated, however ill-shaped, the objects that stand where a schema can stand are in
the terms of the later drafts afterwards. Migration brings in no such place, so each of these objects
is one that was there before with its keywords migrated, and the root has the name of the draft
besides, which no rewrite looks for.
-/

namespace RamlSchema

open Members Migration

theorem nodup_names_of_schemaAt? {path : List SchemaStep} {v : Json} {ms : Members}
    (hnames : v.HasDistinctNames) (h : schemaAt? path v = some (.object ms)) : (names ms).Nodup :=
  nodup_names_of_at? hnames (at?_of_schemaAt? h)

theorem schemaAt?_migrate_of_ne_nil {d : Draft} (hd : d ≠ .draft04) {path : List SchemaStep}
    (hpath : path ≠ []) (v : Json) :
    schemaAt? path (migrate v d) = (schemaAt? path v).map migrateSchema := by
  rw [← schemaAt?_migrateSchema]
  cases path with
  | nil => exact absurd rfl hpath
  | cons s path =>
      have hne : ∀ k ∈ SchemaStep.keywords, k ≠ "$schema" := by decide
      rw [schemaAt?, schemaAt?, s.follow?_congr fun k hk => member?_migrate hd (hne k hk) v]

theorem exists_of_migrateSchema_eq_object {w : Json} {ms : Members}
    (h : migrateSchema w = .object ms) :
    ∃ before, w = .object before ∧ ms = migrateKeywords (mapValues migrateUnder before) := by
  cases w with
  | object before =>
      rw [migrateSchema_object] at h
      exact ⟨before, rfl, (Json.object.inj h).symm⟩
  | _ => cases h

/-- An object at a place of a migrated value was there before, and its keywords are migrated; at the
root it names the draft besides. -/
theorem exists_of_schemaAt?_migrate {d : Draft} (hd : d ≠ .draft04) {path : List SchemaStep}
    {v : Json} {ms : Members} (h : schemaAt? path (migrate v d) = some (.object ms)) :
    ∃ before, schemaAt? path v = some (.object before) ∧
      (ms = migrateKeywords (mapValues migrateUnder before) ∨
        ms = put "$schema" (.string d.metaSchemaUri)
          (migrateKeywords (mapValues migrateUnder before))) := by
  by_cases hpath : path = []
  · subst hpath
    have hroot : migrate v d = .object ms := Option.some.inj h
    cases v with
    | object before =>
        rw [migrate_object hd] at hroot
        exact ⟨before, rfl, .inr (Json.object.inj hroot).symm⟩
    | _ =>
        rw [migrate_of_not_object rfl] at hroot
        cases hroot
  · rw [schemaAt?_migrate_of_ne_nil hd hpath, Option.map_eq_some_iff] at h
    obtain ⟨w, hw, hmigrated⟩ := h
    obtain ⟨before, rfl, hms⟩ := exists_of_migrateSchema_eq_object hmigrated
    exact ⟨before, hw, .inl hms⟩

/-- **A migrated value is in the terms of the later drafts wherever a schema can stand.** No object
there has a flag in the place of an exclusive bound; a text under `id` stands only beside a `$id`, and a
type with a single allowed value only beside a constant. -/
theorem inLaterTerms_of_schemaAt?_migrate {v : Json} (hnames : v.HasDistinctNames) {d : Draft}
    (hd : d ≠ .draft04) {path : List SchemaStep} {ms : Members}
    (h : schemaAt? path (migrate v d) = some (.object ms)) : InLaterTerms ms := by
  obtain ⟨before, hbefore, hms⟩ := exists_of_schemaAt?_migrate hd h
  have hnodup := nodup_names_of_schemaAt? hnames hbefore
  have hmigrated := inLaterTerms_migrateKeywords (nodup_names_mapValues (f := migrateUnder) hnodup)
  rcases hms with rfl | rfl
  · exact hmigrated
  · exact hmigrated.put_schema _

/-- A box deep inside, whose allowed value looks like a schema and whose lower bound is no number. -/
def boxMembers : Members :=
  [("exclusiveMaximum", .boolean true),
    ("id", .string "#box"),
    ("enum", .array [.object [("id", .string "data")]]),
    ("maximum", .number (.integer 9)),
    ("type", .null),
    ("exclusiveMinimum", .boolean true),
    ("minimum", .string "0")]

def boxSchema : Json :=
  .object [
    ("definitions", .object [
      ("id", .object [("dependencies", .object [
        ("enum", .object [("items", .array [.boolean true, .object boxMembers])])])])])]

def boxPath : List SchemaStep :=
  [.named "definitions" "id", .named "dependencies" "enum", .item "items" 1]

def boxMigrated : Members :=
  [("exclusiveMaximum", .number (.integer 9)),
    ("$id", .string "#box"),
    ("const", .object [("id", .string "data")]),
    ("type", .null),
    ("minimum", .string "0")]

theorem inLaterTerms_of_schemaAt?_migrate_boxSchema :
    schemaAt? boxPath (migrate boxSchema .draft07) = some (.object boxMigrated) ∧
      InLaterTerms boxMigrated ∧ ¬ InLaterTerms boxMembers := by
  have hnames : boxSchema.HasDistinctNames := by
    simp [boxSchema, boxMembers, Json.HasDistinctNames, Json.ItemsHaveDistinctNames,
      Json.MembersHaveDistinctNames]
  have hplace : schemaAt? boxPath (migrate boxSchema .draft07) = some (.object boxMigrated) := by
    rfl
  refine ⟨hplace, inLaterTerms_of_schemaAt?_migrate hnames (by decide) hplace, fun h => ?_⟩
  exact h.maximum true rfl

end RamlSchema
