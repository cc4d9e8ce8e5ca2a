import RamlSchema.Proofs.Migration.Entries

/-!
# What migration leaves alone

Every object where a schema can stand gets the members of a migrated object, and the root names its
draft besides. Nothing else is changed. A pointer that leaves the schemas, into an example or a list of
allowed values or behind a keyword that no draft has, leads to the same value before and after, however
far it goes, even if what it finds on the way looks like a schema. Where a keyword gets another name, the
pointer has to use it: behind a text that becomes `$id`, and behind a single allowed value that becomes a
constant.
-/

namespace RamlSchema

open Members Migration

namespace Migration

/-- A schema after migration, where it is not the root. -/
def schemaAfter : Json → Json
  | .object ms => .object (entriesAfter ms)
  | v => v

/-- A schema after migration, where it is the root and names its draft. -/
def rootAfter (uri : String) : Json → Json
  | .object ms => .object (declaringEntries uri (entriesAfter ms))
  | v => v

/-- A pointer from an object with the members `ms` to a value that is no schema, and the pointer to the
same value after migration. -/
inductive DataMoves (ms : Members) : List Step → List Step → Prop
  /-- What stands in a member that keeps its value. -/
  | member {k k' : String} {x : Json} (hmem : (k, x) ∈ ms)
      (hafter : entryAfter ms (k, x) = some (k', x)) (steps : List Step) :
      DataMoves ms (.name k :: steps) (.name k' :: steps)
  /-- What stands in the only allowed value, when it becomes a constant. -/
  | constant {x : Json} (hmem : ("enum", .array [x]) ∈ ms) (htype : "type" ∈ names ms)
      (hconst : "const" ∉ names ms) (steps : List Step) :
      DataMoves ms (.name "enum" :: .index 0 :: steps) (.name "const" :: steps)
  /-- What stands in a dependency on other properties, beside schemas under other names. -/
  | dependency {named : Members} {name : String} {x : Json}
      (hmem : ("dependencies", .object named) ∈ ms) (hname : (name, x) ∈ named)
      (hx : x.isObject = false) (steps : List Step) :
      DataMoves ms (.name "dependencies" :: .name name :: steps)
        (.name "dependencies" :: .name name :: steps)

/-- Where no keyword with schemas and no rewrite looks, all stays where it is. -/
theorem DataMoves.of_not_mem {ms : Members} {k : String} {x : Json} (hmem : (k, x) ∈ ms)
    (hk : k ∉ SchemaStep.keywords) (hkept : k ∉ entryNames) (steps : List Step) :
    DataMoves ms (.name k :: steps) (.name k :: steps) := by
  apply DataMoves.member hmem
  rw [entryAfter_of_not_mem hkept, valueAfter_of_data (position_of_not_mem_keywords hk)]

/-- Under a keyword for schemas under names, migration keeps the names. -/
theorem valueAfter_object {k : String} (hk : k ∈ "dependencies" :: SchemaStep.mapped)
    (named : Members) :
    valueAfter k (.object named) = .object (mapValues (fun _ w => migrateSchema w) named) := by
  have hposition : ∀ k ∈ "dependencies" :: SchemaStep.mapped, position k = .named := by decide
  rw [← migrateUnder_eq_valueAfter]
  simp only [migrateUnder, hposition k hk]

theorem migrateSchema_eq_schemaAfter {w : Json} (hnames : w.HasDistinctNames) :
    migrateSchema w = schemaAfter w := by
  cases w with
  | object ms =>
      have hnodup : (names ms).Nodup := (Json.hasDistinctNames_object.mp hnames).1
      rw [migrateSchema_object, migrateKeywords_eq_entriesAfter hnodup, schemaAfter]
  | _ => rfl

theorem nodup_names_entriesAfter {ms : Members} (hnodup : (names ms).Nodup) :
    (names (entriesAfter ms)).Nodup := by
  rw [← migrateKeywords_eq_entriesAfter hnodup]
  exact nodup_names_migrateKeywords (nodup_names_mapValues hnodup)

theorem put_schema_eq_declaringEntries {ms : Members} (hnodup : (names ms).Nodup) (uri : String) :
    put "$schema" (.string uri) ms = declaringEntries uri ms := by
  unfold declaringEntries
  split
  · next hhas =>
      cases hfind : find? "$schema" ms with
      | some v => exact put_eq_mapValues hnodup hfind fun _ => .string uri
      | none => exact absurd (has_iff.mp hhas) (find?_eq_none_iff.mp hfind)
  · next hhas => exact put_of_not_mem (fun hmem => hhas (has_iff.mpr hmem)) _

theorem migrate_eq_rootAfter {v : Json} (hnames : v.HasDistinctNames) {d : Draft}
    (hd : d ≠ .draft04) : migrate v d = rootAfter d.metaSchemaUri v := by
  cases v with
  | object ms =>
      have hnodup : (names ms).Nodup := (Json.hasDistinctNames_object.mp hnames).1
      rw [migrate_object hd, migrateKeywords_eq_entriesAfter hnodup,
        put_schema_eq_declaringEntries (nodup_names_entriesAfter hnodup), rootAfter]
  | _ => exact migrate_of_not_object rfl d

end Migration

theorem at?_member_of_schemaAt? {path : List SchemaStep} {v x : Json} {ms : Members} {k : String}
    (hplace : schemaAt? path v = some (.object ms)) (hfind : find? k ms = some x)
    (steps : List Step) :
    v.at? (path.flatMap SchemaStep.steps ++ .name k :: steps) = x.at? steps := by
  rw [Json.at?_append, at?_of_schemaAt? hplace, Option.bind_some, Json.at?]
  show (find? k ms).bind _ = _
  rw [hfind, Option.bind_some]

theorem at?_of_mem {path : List SchemaStep} {v x : Json} {ms : Members} {k : String}
    (hnames : v.HasDistinctNames) (hplace : schemaAt? path v = some (.object ms))
    (hmem : (k, x) ∈ ms) (steps : List Step) :
    v.at? (path.flatMap SchemaStep.steps ++ .name k :: steps) = x.at? steps := by
  apply at?_member_of_schemaAt? hplace
  exact (find?_eq_some_iff (nodup_names_of_schemaAt? hnames hplace)).mpr hmem

section Place

variable {v : Json} (hnames : v.HasDistinctNames) {d : Draft} (hd : d ≠ .draft04)
  {path : List SchemaStep}

include hnames hd

theorem schemaAt?_migrate_eq_schemaAfter (hpath : path ≠ []) :
    schemaAt? path (migrate v d) = (schemaAt? path v).map schemaAfter := by
  rw [schemaAt?_migrate_of_ne_nil hd hpath]
  cases hplace : schemaAt? path v with
  | none => rfl
  | some w =>
      have hw : w.HasDistinctNames := Json.hasDistinctNames_of_at? hnames (at?_of_schemaAt? hplace)
      rw [Option.map_some, Option.map_some, migrateSchema_eq_schemaAfter hw]

variable {ms : Members} (hplace : schemaAt? path v = some (.object ms))

include hplace

theorem exists_schemaAt?_migrate : ∃ after,
    schemaAt? path (migrate v d) = some (.object after) ∧
      ∀ k, (path = [] → k ≠ "$schema") → find? k after = find? k (entriesAfter ms) := by
  by_cases hpath : path = []
  · subst hpath
    obtain rfl := Option.some.inj hplace
    have hnodup : (names ms).Nodup := (Json.hasDistinctNames_object.mp hnames).1
    refine ⟨declaringEntries d.metaSchemaUri (entriesAfter ms), ?_, fun k hk => ?_⟩
    · rw [migrate_eq_rootAfter hnames hd]
      rfl
    · rw [← put_schema_eq_declaringEntries (nodup_names_entriesAfter hnodup)]
      exact find?_put_of_ne (hk rfl) _ _
  · refine ⟨entriesAfter ms, ?_, fun _ _ => rfl⟩
    rw [schemaAt?_migrate_eq_schemaAfter hnames hd hpath, hplace]
    rfl

theorem at?_migrate_of_entryAfter {k k' : String} {x x' : Json} (hmem : (k, x) ∈ ms)
    (hafter : entryAfter ms (k, x) = some (k', x')) (hk' : path = [] → k' ≠ "$schema")
    (steps : List Step) :
    (migrate v d).at? (path.flatMap SchemaStep.steps ++ .name k' :: steps) = x'.at? steps := by
  obtain ⟨after, hmigrated, hsame⟩ := exists_schemaAt?_migrate hnames hd hplace
  have hnodup := nodup_names_of_schemaAt? hnames hplace
  have hentry : (k', x') ∈ entriesAfter ms := List.mem_filterMap.mpr ⟨(k, x), hmem, hafter⟩
  apply at?_member_of_schemaAt? hmigrated
  rw [hsame k' hk']
  exact (find?_eq_some_iff (nodup_names_entriesAfter hnodup)).mpr hentry

theorem at?_migrate_of_dataMoves {p p' : List Step} (hdata : DataMoves ms p p')
    (hp' : path = [] → p'.head? ≠ some (.name "$schema")) :
    (migrate v d).at? (path.flatMap SchemaStep.steps ++ p') =
      v.at? (path.flatMap SchemaStep.steps ++ p) := by
  have hname : ∀ k' steps, p' = Step.name k' :: steps → path = [] → k' ≠ "$schema" := by
    intro k' steps heq hpath hschema
    apply hp' hpath
    rw [heq, hschema, List.head?_cons]
  cases hdata with
  | member hmem hafter steps =>
      rw [at?_migrate_of_entryAfter hnames hd hplace hmem hafter (hname _ _ rfl),
        at?_of_mem hnames hplace hmem]
  | @constant x hmem htype hconst steps =>
      have hguard : (has "type" ms && !has "const" ms) = true := by
        rw [has_iff.mpr htype, Bool.true_and, Bool.not_eq_true', has_eq_false_iff]
        exact find?_eq_none_iff.mpr hconst
      have hafter : entryAfter ms ("enum", .array [x]) = some ("const", x) := by
        rw [entryAfter, if_pos hguard]
      rw [at?_migrate_of_entryAfter hnames hd hplace hmem hafter (hname _ _ rfl),
        at?_of_mem hnames hplace hmem]
      rfl
  | @dependency named name x hmem hentry hx steps =>
      have hnodup : (names named).Nodup :=
        nodup_names_of_at? hnames (at?_of_mem hnames hplace hmem [])
      have hfind : find? name named = some x := (find?_eq_some_iff hnodup).mpr hentry
      have hafter := entryAfter_of_not_mem (show "dependencies" ∉ entryNames by decide) ms
        (.object named)
      rw [at?_migrate_of_entryAfter hnames hd hplace hmem hafter (hname _ _ rfl),
        at?_of_mem hnames hplace hmem, valueAfter_object List.mem_cons_self]
      show (find? name (mapValues _ named)).bind _ = (find? name named).bind _
      rw [find?_mapValues, hfind, Option.map_some, migrateSchema_of_not_object hx]

theorem exists_names_eq_of_mapped {k : String} {named : Members}
    (hk : k ∈ "dependencies" :: SchemaStep.mapped) (hmem : (k, .object named) ∈ ms) :
    ∃ named',
      (migrate v d).at? (path.flatMap SchemaStep.steps ++ [.name k]) = some (.object named') ∧
        names named' = names named := by
  have hkept : ∀ k ∈ "dependencies" :: SchemaStep.mapped, k ∉ entryNames ∧ k ≠ "$schema" := by
    decide
  obtain ⟨hname, hschema⟩ := hkept k hk
  refine ⟨mapValues (fun _ w => migrateSchema w) named, ?_, names_mapValues _ named⟩
  have hafter := entryAfter_of_not_mem hname ms (.object named)
  rw [at?_migrate_of_entryAfter hnames hd hplace hmem hafter fun _ => hschema,
    valueAfter_object hk]
  rfl

end Place

/-- **Migration changes nothing else.** Every object where a schema can stand has its members in their
order, each as it becomes by itself; the root names its draft besides. Every value that is no schema is
found again unchanged, at any depth, and the names under which schemas stand are the same ones in the
same order. -/
theorem migrate_keeps_all_else {v : Json} (hnames : v.HasDistinctNames) {d : Draft}
    (hd : d ≠ .draft04) :
    migrate v d = rootAfter d.metaSchemaUri v ∧
      (∀ path : List SchemaStep, path ≠ [] →
        schemaAt? path (migrate v d) = (schemaAt? path v).map schemaAfter) ∧
      ∀ (path : List SchemaStep) (ms : Members), schemaAt? path v = some (.object ms) →
        (∀ p p', DataMoves ms p p' → (path = [] → p'.head? ≠ some (.name "$schema")) →
          (migrate v d).at? (path.flatMap SchemaStep.steps ++ p') =
            v.at? (path.flatMap SchemaStep.steps ++ p)) ∧
        ∀ k ∈ "dependencies" :: SchemaStep.mapped, ∀ named, (k, .object named) ∈ ms →
          ∃ named', (migrate v d).at? (path.flatMap SchemaStep.steps ++ [.name k]) =
              some (.object named') ∧ names named' = names named := by
  refine ⟨migrate_eq_rootAfter hnames hd, ?_, ?_⟩
  · intro path hpath
    exact schemaAt?_migrate_eq_schemaAfter hnames hd hpath
  · intro path ms hplace
    refine ⟨?_, ?_⟩
    · intro p p' hdata hp'
      exact at?_migrate_of_dataMoves hnames hd hplace hdata hp'
    · intro k hk named hmem
      exact exists_names_eq_of_mapped hnames hd hplace hk hmem

/-- Data that looks like a schema in every keyword that a rewrite looks for. -/
def lookalike : Json :=
  .object [
    ("id", .string "data"),
    ("type", .string "object"),
    ("enum", .array [.object [("exclusiveMaximum", .boolean true), ("maximum", .null)]])]

def loadDependencies : Members :=
  [("type", .object [("id", .string "#weight")]), ("id", .array [lookalike])]

/-- A load with each of the rewrites to make, between members that stay. -/
def loadMembers : Members :=
  [("exclusiveMaximum", .boolean true),
    ("default", .array [lookalike]),
    ("id", .string "#load"),
    ("enum", .array [lookalike]),
    ("maximum", .number (.integer 9)),
    ("exclusiveMinimum", .boolean false),
    ("minimum", .number (.integer 0)),
    ("type", .string "object"),
    ("dependencies", .object loadDependencies)]

def loadAfter : Members :=
  [("exclusiveMaximum", .number (.integer 9)),
    ("default", .array [lookalike]),
    ("$id", .string "#load"),
    ("const", lookalike),
    ("minimum", .number (.integer 0)),
    ("type", .string "object"),
    ("dependencies", .object [
      ("type", .object [("$id", .string "#weight")]),
      ("id", .array [lookalike])])]

def truckDefinitions : Members :=
  [("id", .object loadMembers), ("enum", .boolean true)]

def truckMembers : Members :=
  [("id", .object [("id", .string "no text")]),
    ("definitions", .object truckDefinitions),
    ("x-truck", lookalike)]

def truckSchema : Json :=
  .object truckMembers

def truckAfter : Json :=
  .object [
    ("id", .object [("id", .string "no text")]),
    ("definitions", .object [("id", .object loadAfter), ("enum", .boolean true)]),
    ("x-truck", lookalike),
    ("$schema", .string "http://json-schema.org/draft-06/schema#")]

def loadSteps : List Step :=
  [.name "definitions", .name "id"]

theorem migrate_keeps_all_else_truckSchema :
    migrate truckSchema .draft06 = truckAfter ∧
      schemaAt? [.named "definitions" "id"] (migrate truckSchema .draft06) =
        some (.object loadAfter) ∧
      (∀ steps, (migrate truckSchema .draft06).at? (.name "x-truck" :: steps) =
        truckSchema.at? (.name "x-truck" :: steps)) ∧
      (∀ steps, (migrate truckSchema .draft06).at? (loadSteps ++ .name "default" :: steps) =
        truckSchema.at? (loadSteps ++ .name "default" :: steps)) ∧
      (∀ steps, (migrate truckSchema .draft06).at? (loadSteps ++ .name "const" :: steps) =
        truckSchema.at? (loadSteps ++ .name "enum" :: .index 0 :: steps)) ∧
      (∀ steps, (migrate truckSchema .draft06).at?
          (loadSteps ++ .name "dependencies" :: .name "id" :: steps) =
        truckSchema.at? (loadSteps ++ .name "dependencies" :: .name "id" :: steps)) ∧
      ∃ named, (migrate truckSchema .draft06).at? [.name "definitions"] = some (.object named) ∧
        names named = ["id", "enum"] := by
  have hnames : truckSchema.HasDistinctNames := by
    simp [truckSchema, truckMembers, truckDefinitions, loadMembers, loadDependencies, lookalike,
      Json.HasDistinctNames, Json.ItemsHaveDistinctNames, Json.MembersHaveDistinctNames]
  obtain ⟨hroot, hbelow, hplaces⟩ :=
    migrate_keeps_all_else hnames (show Draft.draft06 ≠ .draft04 by decide)
  obtain ⟨htruck, htruckNames⟩ := hplaces [] truckMembers rfl
  obtain ⟨hload, -⟩ := hplaces [.named "definitions" "id"] loadMembers rfl
  refine ⟨hroot.trans rfl, (hbelow _ (by decide)).trans rfl, ?_, ?_, ?_, ?_, ?_⟩
  · intro steps
    have hmem : ("x-truck", lookalike) ∈ truckMembers := by simp [truckMembers]
    apply htruck _ _ (.of_not_mem hmem (by decide) (by decide) steps)
    intro _
    show some (Step.name "x-truck") ≠ _
    decide
  · intro steps
    have hmem : ("default", .array [lookalike]) ∈ loadMembers := by simp [loadMembers]
    apply hload _ _ (.of_not_mem hmem (by decide) (by decide) steps)
    intro hpath
    cases hpath
  · intro steps
    have hmem : ("enum", .array [lookalike]) ∈ loadMembers := by simp [loadMembers]
    apply hload _ _ (.constant hmem (by decide) (by decide) steps)
    intro hpath
    cases hpath
  · intro steps
    have hmem : ("dependencies", .object loadDependencies) ∈ loadMembers := by simp [loadMembers]
    have hname : ("id", .array [lookalike]) ∈ loadDependencies := by simp [loadDependencies]
    apply hload _ _ (.dependency hmem hname rfl steps)
    intro hpath
    cases hpath
  · have hmem : ("definitions", .object truckDefinitions) ∈ truckMembers := by simp [truckMembers]
    exact htruckNames _ (by decide) _ hmem

end RamlSchema
