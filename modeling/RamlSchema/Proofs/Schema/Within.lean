import RamlSchema.Proofs.Schema.Shape

/-!
# The schemas within a schema

Where a draft asks for schemas under a keyword, the values there are schemas themselves. What is true
of every one of them, at whatever depth it stands, is true of the members of the outermost and of the
schemas that stand directly in it.
-/

namespace RamlSchema.Schema

/-- The values that stand in a value of some shape as schemas. -/
def schemasIn : Shape → Json → List Json
  | .schema, v => [v]
  | .flagOrSchema, v => [v]
  | .schemaOrList, .array items => items
  | .schemaOrList, v => [v]
  | .schemaList, .array items => items
  | .named _, .object named => named.map (·.2)
  | .dependencies, .object named => named.map (·.2)
  | _, _ => []

theorem mem_schemasIn_cases {shape : Shape} {v w : Json} (h : w ∈ schemasIn shape v) :
    w = v ∨ (∃ items, v = .array items ∧ w ∈ items) ∨
      ∃ named : Members, v = .object named ∧ ∃ m ∈ named, m.2 = w := by
  unfold schemasIn at h
  split at h
  all_goals first
    | exact .inl (List.mem_singleton.mp h)
    | exact .inr (.inl ⟨_, rfl, h⟩)
    | exact .inr (.inr ⟨_, rfl, List.mem_map.mp h⟩)
    | exact absurd h List.not_mem_nil

theorem depth_le_of_mem_schemasIn {shape : Shape} {v w : Json} (h : w ∈ schemasIn shape v) :
    w.depth ≤ v.depth := by
  rcases mem_schemasIn_cases h with rfl | ⟨items, rfl, hw⟩ | ⟨named, rfl, m, hm, rfl⟩
  · exact Nat.le_refl _
  · exact Nat.le_of_lt (Json.depth_lt_of_mem_array hw)
  · exact Nat.le_of_lt (Json.depth_lt_of_mem_object hm)

theorem hasDistinctNames_of_mem_schemasIn {shape : Shape} {v w : Json}
    (hnames : v.HasDistinctNames) (hw : w ∈ schemasIn shape v) : w.HasDistinctNames := by
  rcases mem_schemasIn_cases hw with rfl | ⟨items, rfl, hitem⟩ | ⟨named, rfl, m, hm, rfl⟩
  · exact hnames
  · exact Json.hasDistinctNames_array.mp hnames w hitem
  · exact (Json.hasDistinctNames_object.mp hnames).2 m hm

/-- What stands as a schema in a value of some shape is one, if it is an object at all. -/
theorem isSchema_of_mem_schemasIn {d : Draft} {shape : Shape} {v : Json} {ms : Members}
    (h : Fits d shape v) (hw : .object ms ∈ schemasIn shape v) : IsSchema d (.object ms) := by
  cases shape with
  | data holds => exact absurd hw List.not_mem_nil
  | schema =>
      obtain rfl := List.mem_singleton.mp hw
      exact h
  | flagOrSchema =>
      obtain rfl := List.mem_singleton.mp hw
      exact h.resolve_left nofun
  | schemaOrList =>
      rcases h with hschema | ⟨items, rfl, _, hitems⟩
      · rcases isSchema_cases hschema with ⟨ms', rfl⟩ | ⟨_, b, rfl⟩
        · rw [List.mem_singleton.mp hw]
          exact hschema
        · exact nomatch List.mem_singleton.mp hw
      · exact hitems _ hw
  | schemaList =>
      obtain ⟨items, rfl, _, hitems⟩ := h
      exact hitems _ hw
  | named allowed =>
      obtain ⟨named, rfl, _, hnamed⟩ := h
      obtain ⟨m, hm, hvalue⟩ := List.mem_map.mp hw
      exact hvalue ▸ hnamed m hm
  | dependencies =>
      obtain ⟨named, rfl, hnamed⟩ := h
      obtain ⟨m, hm, hvalue⟩ := List.mem_map.mp hw
      have hfits := hnamed m hm
      rw [hvalue] at hfits
      exact hfits.resolve_right nofun

/-- An object stands in a value as a schema: it is the value, or it stands in one of the schemas
under a keyword of the value. -/
inductive Within (d : Draft) : Json → Members → Prop
  | self (ms : Members) : Within d (.object ms) ms
  | under {ms inner : Members} {k : String} {v w : Json} (hm : (k, v) ∈ ms)
      (hw : w ∈ schemasIn (shapeOf d k) v) (h : Within d w inner) : Within d (.object ms) inner

theorem Within.isSchema {d : Draft} {v : Json} {ms : Members} (hwithin : Within d v ms)
    (h : IsSchema d v) : IsSchema d (.object ms) := by
  induction hwithin with
  | self ms => exact h
  | @under ms inner k v w hm hw hwithin ih =>
      have hobject : ∃ ms, w = .object ms := by
        cases hwithin with
        | self => exact ⟨_, rfl⟩
        | under => exact ⟨_, rfl⟩
      obtain ⟨ms', rfl⟩ := hobject
      exact ih (isSchema_of_mem_schemasIn ((isSchema_object.mp h).2 _ hm) hw)

/-- Something is true of all members of all schemas within a value. -/
def EachMember (d : Draft) (p : String → Json → Prop) (v : Json) : Prop :=
  ∀ ms, Within d v ms → ∀ m ∈ ms, p m.1 m.2

variable {d : Draft} {p : String → Json → Prop}

theorem eachMember_of_not_object {v : Json} (h : v.isObject = false) : EachMember d p v := by
  intro ms hms
  cases hms with
  | self => exact absurd h (by simp [Json.isObject])
  | under => exact absurd h (by simp [Json.isObject])

theorem eachMember_object {ms : Members} :
    EachMember d p (.object ms) ↔
      ∀ m ∈ ms, p m.1 m.2 ∧ ∀ w ∈ schemasIn (shapeOf d m.1) m.2, EachMember d p w := by
  constructor
  · intro h m hm
    exact ⟨h ms (.self ms) m hm, fun w hw inner hinner => h inner (.under hm hw hinner)⟩
  · intro h inner hinner
    cases hinner with
    | self => exact fun m hm => (h m hm).1
    | under hm hw hinner => exact (h _ hm).2 _ hw inner hinner

end RamlSchema.Schema
