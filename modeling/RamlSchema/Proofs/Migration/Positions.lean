import RamlSchema.Migration
import RamlSchema.Proofs.Json.Tree

/-!
# Where schemas stand

Migration walks a schema with one function for each kind of place. Here the walk is one equation: the
keywords of an object are changed after every value in it has been migrated by what stands under its
name. The schemas that stand directly under the keywords of an object are the steps of an induction
over all schemas inside a schema.
-/

namespace RamlSchema.Migration

/-- The value under a keyword with the schemas in it migrated. -/
def migrateUnder (keyword : String) (v : Json) : Json :=
  match position keyword, v with
  | .schema, v => migrateSchema v
  | .schemas, .array items => .array (items.map migrateSchema)
  | .schemas, v => migrateSchema v
  | .named, .object named => .object (Members.mapValues (fun _ => migrateSchema) named)
  | _, v => v

theorem migrateItems_eq_map (items : List Json) : migrateItems items = items.map migrateSchema := by
  induction items with
  | nil => rfl
  | cons v rest ih => rw [migrateItems, ih, List.map_cons]

theorem migrateNamed_eq_mapValues (named : Members) :
    migrateNamed named = Members.mapValues (fun _ => migrateSchema) named := by
  induction named with
  | nil => rfl
  | cons m rest ih => rw [migrateNamed, ih, Members.mapValues_cons]

theorem migrateMembers_eq_mapValues (ms : Members) :
    migrateMembers ms = Members.mapValues migrateUnder ms := by
  induction ms with
  | nil => rfl
  | cons m rest ih =>
      obtain ⟨k, v⟩ := m
      have hvalue : migrateMembers ((k, v) :: rest) =
          (k, migrateUnder k v) :: migrateMembers rest := by
        conv => lhs; unfold migrateMembers
        unfold migrateUnder
        cases position k <;> cases v <;>
          simp only [migrateItems_eq_map, migrateNamed_eq_mapValues]
      rw [hvalue, ih, Members.mapValues_cons]

theorem migrateSchema_object (ms : Members) :
    migrateSchema (.object ms) = .object (migrateKeywords (Members.mapValues migrateUnder ms)) := by
  rw [migrateSchema, migrateMembers_eq_mapValues]

theorem migrateSchema_of_not_object {v : Json} (h : v.isObject = false) : migrateSchema v = v := by
  cases v with
  | object ms => exact absurd h (by simp [Json.isObject])
  | _ => rfl

theorem migrateUnder_data {keyword : String} (h : position keyword = .data) (v : Json) :
    migrateUnder keyword v = v := by
  simp only [migrateUnder, h]

theorem find?_mapValues_migrateUnder {keyword : String} (h : position keyword = .data)
    (ms : Members) :
    (Members.mapValues migrateUnder ms).find? keyword = ms.find? keyword := by
  rw [Members.find?_mapValues]
  cases ms.find? keyword with
  | none => rfl
  | some v => rw [Option.map_some, migrateUnder_data h]

/-- The schemas that stand directly under a keyword. -/
def schemasUnder (keyword : String) (v : Json) : List Json :=
  match position keyword, v with
  | .schema, v => [v]
  | .schemas, .array items => items
  | .schemas, v => [v]
  | .named, .object named => named.map (·.2)
  | _, _ => []

/-- What stands at a schema position of a value: the value itself, and what stands at one of a
schema under one of its keywords. -/
inductive HasSchema : Json → Json → Prop
  | self (s : Json) : HasSchema s s
  | under {ms : Members} {k : String} {v w x : Json} :
      (k, v) ∈ ms → w ∈ schemasUnder k v → HasSchema w x → HasSchema (.object ms) x

/-- What stands at a schema position below the root. -/
def HasSubschema (s x : Json) : Prop :=
  ∃ (ms : Members) (k : String) (v w : Json),
    s = .object ms ∧ (k, v) ∈ ms ∧ w ∈ schemasUnder k v ∧ HasSchema w x

theorem hasSubschema_object {ms : Members} {x : Json} :
    HasSubschema (.object ms) x ↔ ∃ m ∈ ms, ∃ w ∈ schemasUnder m.1 m.2, HasSchema w x := by
  constructor
  · intro h
    obtain ⟨ms', k, v, w, hms, hm, hw, hx⟩ := h
    obtain rfl := Json.object.inj hms
    exact ⟨_, hm, w, hw, hx⟩
  · intro h
    obtain ⟨m, hm, w, hw, hx⟩ := h
    exact ⟨ms, m.1, m.2, w, rfl, hm, hw, hx⟩

theorem hasSchema_iff {s x : Json} : HasSchema s x ↔ x = s ∨ HasSubschema s x := by
  constructor
  · intro h
    cases h with
    | self => exact .inl rfl
    | under hm hw hx => exact .inr ⟨_, _, _, _, rfl, hm, hw, hx⟩
  · intro h
    rcases h with rfl | ⟨ms, k, v, w, rfl, hm, hw, hx⟩
    · exact .self _
    · exact .under hm hw hx

/-- The four ways in which schemas can stand under a keyword, and what migration does with each. -/
inductive Holds (keyword : String) (v : Json) : Prop
  | data (hmigrate : migrateUnder keyword v = v) (hschemas : schemasUnder keyword v = [])
  | one (hmigrate : migrateUnder keyword v = migrateSchema v)
      (hschemas : schemasUnder keyword v = [v])
  | list (items : List Json) (hv : v = .array items)
      (hmigrate : migrateUnder keyword v = .array (items.map migrateSchema))
      (hschemas : schemasUnder keyword v = items)
  | named (named : Members) (hv : v = .object named)
      (hmigrate : migrateUnder keyword v = .object (Members.mapValues (fun _ => migrateSchema) named))
      (hschemas : schemasUnder keyword v = named.map (·.2))

theorem holds (keyword : String) (v : Json) : Holds keyword v := by
  cases hposition : position keyword with
  | schema =>
      apply Holds.one
      · simp only [migrateUnder, hposition]
      · simp only [schemasUnder, hposition]
  | schemas =>
      cases v with
      | array items =>
          apply Holds.list items rfl
          · simp only [migrateUnder, hposition]
          · simp only [schemasUnder, hposition]
      | _ =>
          apply Holds.one
          · simp only [migrateUnder, hposition]
          · simp only [schemasUnder, hposition]
  | named =>
      cases v with
      | object named =>
          apply Holds.named named rfl
          · simp only [migrateUnder, hposition]
          · simp only [schemasUnder, hposition]
      | _ =>
          apply Holds.data
          · simp only [migrateUnder, hposition]
          · simp only [schemasUnder, hposition]
  | data =>
      apply Holds.data
      · simp only [migrateUnder, hposition]
      · simp only [schemasUnder, hposition]

theorem depth_le_of_mem_schemasUnder {keyword : String} {v w : Json}
    (h : w ∈ schemasUnder keyword v) : w.depth ≤ v.depth := by
  cases holds keyword v with
  | data _ hschemas => simp [hschemas] at h
  | one _ hschemas =>
      rw [hschemas, List.mem_singleton] at h
      exact Nat.le_of_eq (congrArg Json.depth h)
  | list items hv _ hschemas =>
      rw [hschemas] at h
      exact hv ▸ Nat.le_of_lt (Json.depth_lt_of_mem_array h)
  | named named hv _ hschemas =>
      rw [hschemas] at h
      obtain ⟨m, hm, rfl⟩ := List.mem_map.mp h
      exact hv ▸ Nat.le_of_lt (Json.depth_lt_of_mem_object hm)

/-- Induction over the schemas inside a schema: what is to be shown of an object is known of every
schema that stands under one of its keywords. -/
@[elab_as_elim]
theorem schemaInduction {motive : Json → Prop} (other : ∀ v, v.isObject = false → motive v)
    (object : ∀ ms : Members,
      (∀ m ∈ ms, ∀ w ∈ schemasUnder m.1 m.2, motive w) → motive (.object ms))
    (v : Json) : motive v := by
  induction hdepth : v.depth using Nat.strongRecOn generalizing v with
  | ind depth ih =>
      cases v with
      | object ms =>
          refine object ms fun m hm w hw => ih w.depth ?_ w rfl
          have hmember := Json.depth_lt_of_mem_object hm
          have hunder := depth_le_of_mem_schemasUnder hw
          omega
      | _ => exact other _ rfl

theorem hasDistinctNames_of_mem_schemasUnder {keyword : String} {v w : Json}
    (hv : v.HasDistinctNames) (h : w ∈ schemasUnder keyword v) : w.HasDistinctNames := by
  cases holds keyword v with
  | data _ hschemas => simp [hschemas] at h
  | one _ hschemas =>
      rw [hschemas, List.mem_singleton] at h
      exact h ▸ hv
  | list items hitems _ hschemas =>
      rw [hschemas] at h
      exact Json.hasDistinctNames_array.mp (hitems ▸ hv) w h
  | named named hnamed _ hschemas =>
      rw [hschemas] at h
      obtain ⟨m, hm, rfl⟩ := List.mem_map.mp h
      exact (Json.hasDistinctNames_object.mp (hnamed ▸ hv)).2 m hm

end RamlSchema.Migration
