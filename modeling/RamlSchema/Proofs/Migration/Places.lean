import RamlSchema.Proofs.Json.Places
import RamlSchema.Proofs.Migration.Keywords

/-!
# Places of schemas in a migrated schema

A reference names a schema by the keywords and names that lead to it from the root. Migration gives
keywords other names and drops some, but never one under which schemas stand, and it changes no name
that an author chose and no order of a list. So the same steps lead to a schema before and after, and
what they lead to is migrated as if it stood alone.
-/

namespace RamlSchema

open Members Migration

/-- One step from a schema to one that stands directly under a keyword of it: all that stands there,
an item of a list, or what stands under a name. -/
inductive SchemaStep
  | whole (keyword : String)
  | item (keyword : String) (i : Nat)
  | named (keyword name : String)
  deriving DecidableEq, Repr

namespace SchemaStep

/-- The keywords with one schema and no list. -/
def alone : List String :=
  ["additionalItems", "additionalProperties", "not", "contains", "propertyNames"]

/-- The keywords with a list of schemas, or with one schema. -/
def listed : List String :=
  ["items", "allOf", "anyOf", "oneOf"]

/-- The keywords with schemas under names of any kind. -/
def mapped : List String :=
  ["properties", "patternProperties", "definitions"]

/-- The schema that a step leads to. A list of schemas is not one, and under `dependencies` only
objects are. -/
def follow? : SchemaStep → Json → Option Json
  | whole k, v =>
    if k ∈ alone then v.member? k
    else if k ∈ listed then (v.member? k).filter (·.typeName ≠ "array")
    else none
  | item k i, v => if k ∈ listed then (v.member? k).bind (Step.index i).follow? else none
  | named k name, v =>
    if k ∈ mapped then (v.member? k).bind (Step.name name).follow?
    else if k = "dependencies" then
      ((v.member? k).bind (Step.name name).follow?).filter (·.isObject)
    else none

/-- The steps of a pointer that a step to a schema takes. -/
def steps : SchemaStep → List Step
  | whole k => [.name k]
  | item k i => [.name k, .index i]
  | named k name => [.name k, .name name]

end SchemaStep

/-- The schema that steps lead to, the first one first. -/
def schemaAt? : List SchemaStep → Json → Option Json
  | [], v => some v
  | s :: path, v => (s.follow? v).bind (schemaAt? path)

/-! ### A pointer to a schema -/

theorem follow?_name (k : String) (v : Json) : (Step.name k).follow? v = v.member? k := by
  cases v <;> rfl

namespace SchemaStep

theorem follow?_whole (k : String) (v : Json) :
    (whole k).follow? v =
      if k ∈ alone then v.member? k
      else if k ∈ listed then (v.member? k).filter (·.typeName ≠ "array")
      else none :=
  rfl

theorem follow?_item (k : String) (i : Nat) (v : Json) :
    (item k i).follow? v =
      if k ∈ listed then (v.member? k).bind (Step.index i).follow? else none :=
  rfl

theorem follow?_named (k name : String) (v : Json) :
    (named k name).follow? v =
      if k ∈ mapped then (v.member? k).bind (Step.name name).follow?
      else if k = "dependencies" then
        ((v.member? k).bind (Step.name name).follow?).filter (·.isObject)
      else none :=
  rfl

end SchemaStep

theorem SchemaStep.at?_steps {s : SchemaStep} {v w : Json} (h : s.follow? v = some w) :
    v.at? s.steps = some w := by
  have htwo : ∀ (a b : Step), v.at? [a, b] = (a.follow? v).bind b.follow? := by
    intro a b
    rw [Json.at?]
    refine congrArg (Option.bind _) (funext fun x => ?_)
    rw [Json.at?]
    cases b.follow? x <;> rfl
  cases s with
  | whole k =>
      have hmember : v.member? k = some w := by
        rw [follow?_whole] at h
        split at h
        · exact h
        · split at h
          · exact (Option.filter_eq_some_iff.mp h).1
          · cases h
      rw [steps, Json.at?, follow?_name, hmember]
      rfl
  | item k i =>
      rw [follow?_item] at h
      split at h
      · rw [steps, htwo, follow?_name, h]
      · cases h
  | named k name =>
      rw [steps, htwo, follow?_name]
      rw [follow?_named] at h
      split at h
      · exact h
      · split at h
        · exact (Option.filter_eq_some_iff.mp h).1
        · cases h

theorem at?_of_schemaAt? {path : List SchemaStep} {v w : Json} (h : schemaAt? path v = some w) :
    v.at? (path.flatMap SchemaStep.steps) = some w := by
  induction path generalizing v with
  | nil => exact h
  | cons s path ih =>
      obtain ⟨x, hx, hw⟩ := Option.bind_eq_some_iff.mp h
      rw [List.flatMap_cons, Json.at?_append, SchemaStep.at?_steps hx]
      exact ih hw

/-! ### One step in a migrated schema -/

namespace Migration

theorem typeName_migrateSchema (v : Json) : (migrateSchema v).typeName = v.typeName := by
  cases v <;> rfl

theorem isObject_migrateSchema (v : Json) : (migrateSchema v).isObject = v.isObject := by
  cases v <;> rfl

theorem member?_migrateSchema {k : String} (hk : k ∉ rewrittenNames) (v : Json) :
    (migrateSchema v).member? k = (v.member? k).map (migrateUnder k) := by
  cases v with
  | object ms =>
      rw [migrateSchema_object]
      show find? k (migrateKeywords _) = (find? k ms).map _
      rw [find?_migrateKeywords hk, find?_mapValues]
  | _ => rfl

theorem migrateUnder_alone {k : String} (hk : k ∈ SchemaStep.alone) (v : Json) :
    migrateUnder k v = migrateSchema v := by
  have hposition : ∀ k ∈ SchemaStep.alone, position k = .schema := by decide
  simp only [migrateUnder, hposition k hk]

theorem migrateUnder_listed {k : String} (hk : k ∈ SchemaStep.listed) {v : Json}
    (hv : v.typeName ≠ "array") : migrateUnder k v = migrateSchema v := by
  have hposition : ∀ k ∈ SchemaStep.listed, position k = .schemas := by decide
  cases v with
  | array items => exact absurd rfl hv
  | _ => simp only [migrateUnder, hposition k hk]

theorem migrateUnder_listed_array {k : String} (hk : k ∈ SchemaStep.listed) (items : List Json) :
    migrateUnder k (.array items) = .array (items.map migrateSchema) := by
  have hposition : ∀ k ∈ SchemaStep.listed, position k = .schemas := by decide
  simp only [migrateUnder, hposition k hk]

theorem follow?_index_migrateUnder {k : String} (hk : k ∈ SchemaStep.listed) (i : Nat) (v : Json) :
    (Step.index i).follow? (migrateUnder k v) = ((Step.index i).follow? v).map migrateSchema := by
  cases v with
  | array items =>
      rw [migrateUnder_listed_array hk]
      exact List.getElem?_map
  | object ms =>
      rw [migrateUnder_listed hk (by simp [Json.typeName]), migrateSchema_object]
      rfl
  | _ =>
      rw [migrateUnder_listed hk (by simp [Json.typeName])]
      rfl

theorem follow?_name_migrateUnder {k : String} (hk : position k = .named) (name : String)
    (v : Json) :
    (Step.name name).follow? (migrateUnder k v) =
      ((Step.name name).follow? v).map migrateSchema := by
  cases v with
  | object named =>
      simp only [migrateUnder, hk]
      exact find?_mapValues _ name named
  | _ =>
      simp only [migrateUnder, hk]
      rfl

end Migration

namespace SchemaStep

/-- The keywords under which schemas stand. -/
def keywords : List String :=
  alone ++ listed ++ mapped ++ ["dependencies"]

theorem not_mem_rewrittenNames {k : String} (hk : k ∈ keywords) : k ∉ rewrittenNames := by
  have hall : ∀ k ∈ keywords, k ∉ rewrittenNames := by decide
  exact hall k hk

/-- A step looks at nothing but what stands under such keywords. -/
theorem follow?_congr (s : SchemaStep) {v w : Json}
    (h : ∀ k ∈ keywords, v.member? k = w.member? k) : s.follow? v = s.follow? w := by
  cases s with
  | whole k =>
      rw [follow?_whole, follow?_whole]
      split
      · next hk => exact h k (by simp [keywords, hk])
      · split
        · next hk => rw [h k (by simp [keywords, hk])]
        · rfl
  | item k i =>
      rw [follow?_item, follow?_item]
      split
      · next hk => rw [h k (by simp [keywords, hk])]
      · rfl
  | named k name =>
      rw [follow?_named, follow?_named]
      split
      · next hk => rw [h k (by simp [keywords, hk])]
      · split
        · next hk => rw [h k (by simp [keywords, hk])]
        · rfl

/-- A step leads to a schema in a migrated one if it does so before, and to the migrated one. -/
theorem follow?_migrateSchema (s : SchemaStep) (v : Json) :
    s.follow? (migrateSchema v) = (s.follow? v).map migrateSchema := by
  have hmember : ∀ k ∈ keywords,
      (migrateSchema v).member? k = (v.member? k).map (migrateUnder k) :=
    fun k hk => member?_migrateSchema (not_mem_rewrittenNames hk) v
  cases s with
  | whole k =>
      rw [follow?_whole, follow?_whole]
      split
      · next hk =>
          rw [hmember k (by simp [keywords, hk])]
          exact congrArg (Option.map · _) (funext (migrateUnder_alone hk))
      · split
        · next hk =>
            rw [hmember k (by simp [keywords, hk])]
            cases v.member? k with
            | none => rfl
            | some w =>
                by_cases hw : w.typeName = "array"
                · cases w with
                  | array items =>
                      rw [Option.map_some, migrateUnder_listed_array hk]
                      rfl
                  | _ => simp [Json.typeName] at hw
                · rw [Option.map_some, migrateUnder_listed hk hw]
                  simp [Option.filter, typeName_migrateSchema, hw]
        · rfl
  | item k i =>
      rw [follow?_item, follow?_item]
      split
      · next hk =>
          rw [hmember k (by simp [keywords, hk])]
          cases v.member? k with
          | none => rfl
          | some w => exact follow?_index_migrateUnder hk i w
      · rfl
  | named k name =>
      have hbind : k ∈ keywords → position k = .named →
          ((migrateSchema v).member? k).bind (Step.name name).follow? =
            ((v.member? k).bind (Step.name name).follow?).map migrateSchema := by
        intro hk hposition
        rw [hmember k hk]
        cases v.member? k with
        | none => rfl
        | some w => exact follow?_name_migrateUnder hposition name w
      rw [follow?_named, follow?_named]
      split
      · next hk =>
          have hposition : ∀ k ∈ mapped, position k = .named := by decide
          exact hbind (by simp [keywords, hk]) (hposition k hk)
      · split
        · next hk =>
            rw [hbind (by simp [keywords, hk]) (hk ▸ by decide)]
            cases (v.member? k).bind (Step.name name).follow? with
            | none => rfl
            | some w => simp [Option.filter, isObject_migrateSchema, apply_ite (Option.map _)]
        · rfl

end SchemaStep

theorem schemaAt?_migrateSchema (path : List SchemaStep) (v : Json) :
    schemaAt? path (migrateSchema v) = (schemaAt? path v).map migrateSchema := by
  induction path generalizing v with
  | nil => rfl
  | cons s path ih =>
      rw [schemaAt?, schemaAt?, s.follow?_migrateSchema]
      cases s.follow? v with
      | none => rfl
      | some w => exact ih w

/-! ### The name of the draft -/

/-- An object with the draft that another one names, or with none if that names none. -/
def keepDeclaration (w : Json) : Json → Json
  | .object ms =>
    match w.member? "$schema" with
    | some uri => .object (put "$schema" uri ms)
    | none => .object (remove "$schema" ms)
  | v => v

/-- A schema that stands inside another one is migrated as it would be alone, but it names the draft
that it named. -/
theorem keepDeclaration_migrate {d : Draft} (hd : d ≠ .draft04) (w : Json) :
    keepDeclaration w (migrate w d) = migrateSchema w := by
  cases w with
  | object ms =>
      have hkept : find? "$schema" (migrateKeywords (mapValues migrateUnder ms)) =
          find? "$schema" ms := by
        rw [find?_migrateKeywords (by decide), find?_mapValues_migrateUnder (by decide)]
      rw [migrate_object hd, keepDeclaration, migrateSchema_object]
      show (match find? "$schema" ms with | some uri => _ | none => _) = _
      cases hfind : find? "$schema" ms with
      | some uri =>
          show Json.object (put "$schema" uri (put "$schema" _ _)) = _
          rw [put_put, put_eq_self (hkept.trans hfind)]
      | none =>
          show Json.object (remove "$schema" (put "$schema" _ _)) = _
          rw [remove_put_of_not_mem (find?_eq_none_iff.mp (hkept.trans hfind))]
  | _ =>
      rw [migrate_of_not_object rfl, migrateSchema_of_not_object rfl]
      rfl

theorem member?_migrate {d : Draft} (hd : d ≠ .draft04) {k : String} (hk : k ≠ "$schema")
    (v : Json) : (migrate v d).member? k = (migrateSchema v).member? k := by
  cases v with
  | object ms =>
      rw [migrate_object hd, migrateSchema_object]
      exact find?_put_of_ne hk _ _
  | _ => rw [migrate_of_not_object rfl, migrateSchema_of_not_object rfl]

/-- **A reference to a schema leads to the same schema after migration.** Steps below the root lead
to a schema in the migrated value if and only if they do so before, and to the same one migrated as
if it stood alone, except for the draft that it names. A pointer of these steps leads there too. -/
theorem schemaAt?_migrate {d : Draft} (hd : d ≠ .draft04) {path : List SchemaStep}
    (hpath : path ≠ []) (v : Json) :
    schemaAt? path (migrate v d) =
        (schemaAt? path v).map (fun w => keepDeclaration w (migrate w d)) ∧
      ∀ w, schemaAt? path v = some w →
        v.at? (path.flatMap SchemaStep.steps) = some w ∧
        (migrate v d).at? (path.flatMap SchemaStep.steps) =
          some (keepDeclaration w (migrate w d)) := by
  have hroot : schemaAt? path (migrate v d) = schemaAt? path (migrateSchema v) := by
    cases path with
    | nil => exact absurd rfl hpath
    | cons s path =>
        have hne : ∀ k ∈ SchemaStep.keywords, k ≠ "$schema" := by decide
        rw [schemaAt?, schemaAt?, s.follow?_congr fun k hk => member?_migrate hd (hne k hk) v]
  have hmigrated : schemaAt? path (migrate v d) =
      (schemaAt? path v).map (fun w => keepDeclaration w (migrate w d)) := by
    rw [hroot, schemaAt?_migrateSchema, funext (keepDeclaration_migrate hd)]
  refine ⟨hmigrated, fun w hw => ⟨at?_of_schemaAt? hw, at?_of_schemaAt? ?_⟩⟩
  rw [hmigrated, hw, Option.map_some]

/-- A catalogue with a schema that names a draft of its own, under a name that is a keyword
elsewhere. -/
def catalogSchema : Json :=
  .object [
    ("id", .string "catalog"),
    ("definitions", .object [
      ("id", .object [
        ("items", .array [
          .object [],
          .object [
            ("$schema", .string "http://json-schema.org/draft-04/schema#"),
            ("id", .string "#entry"),
            ("type", .string "string"),
            ("enum", .array [.string "book"])]])])]),
    ("dependencies", .object [("id", .array [.string "items"])])]

def catalogEntry : Json :=
  .object [
    ("$schema", .string "http://json-schema.org/draft-04/schema#"),
    ("$id", .string "#entry"),
    ("type", .string "string"),
    ("const", .string "book")]

theorem schemaAt?_migrate_catalogSchema :
    schemaAt? [.named "definitions" "id", .item "items" 1] (migrate catalogSchema .draft07) =
        some catalogEntry ∧
      (migrate catalogSchema .draft07).at?
          [.name "definitions", .name "id", .name "items", .index 1] = some catalogEntry ∧
      schemaAt? [.named "dependencies" "id"] (migrate catalogSchema .draft07) = none := by
  obtain ⟨hentry, hpointer⟩ := @schemaAt?_migrate .draft07 (by decide)
    [.named "definitions" "id", .item "items" 1] (by decide) catalogSchema
  obtain ⟨hnames, -⟩ := @schemaAt?_migrate .draft07 (by decide)
    [.named "dependencies" "id"] (by decide) catalogSchema
  exact ⟨hentry.trans (by rfl), (hpointer _ rfl).2.trans (by rfl), hnames.trans (by rfl)⟩

end RamlSchema
