import RamlSchema.Proofs.Migration.Keywords
import RamlSchema.Proofs.Schema.Shape

/-!
# From the shapes of draft 04 to those of a later draft

Under most keywords the later drafts ask no more than draft 04, and where they ask for schemas,
migration looks for schemas. So a value that has the shape of draft 04 has, once migrated, the shape of
the later draft, as soon as the schemas in it are known to.
-/

namespace RamlSchema.Migration

open Members Schema

/-- The keywords of the later drafts that draft 04 does not know and migration does not make legal.
-/
def laterKeywords : List String :=
  ["$id", "const", "contains", "propertyNames", "$comment", "readOnly", "writeOnly",
    "contentMediaType", "contentEncoding", "if", "then", "else"]

/-- What two drafts ask under one keyword, such that a migrated value has the second shape if the
value has the first: what they ask of data is more in the first, and schemas in it stand where
migration looks for schemas. -/
inductive Upgrade (keyword : String) : Shape → Shape → Prop
  | data {p q : Json → Prop} (hposition : position keyword = .data) (himp : ∀ v, p v → q v) :
      Upgrade keyword (.data p) (.data q)
  | schema (hposition : position keyword = .schema) : Upgrade keyword .schema .schema
  | flagOrSchema (hposition : position keyword = .schema) :
      Upgrade keyword .flagOrSchema .flagOrSchema
  | schemaOrList (hposition : position keyword = .schemas) :
      Upgrade keyword .schemaOrList .schemaOrList
  | schemaList (hposition : position keyword = .schemas) : Upgrade keyword .schemaList .schemaList
  | named {p q : String → Prop} (hposition : position keyword = .named)
      (hallowed : ∀ name,
        (keyword = "patternProperties" → Pattern.isPattern name = true) → q name) :
      Upgrade keyword (.named p) (.named q)
  | dependencies (hposition : position keyword = .named) :
      Upgrade keyword .dependencies .dependencies

/-- The keywords under which a later draft asks more than draft 04, or something else. -/
def narrowedKeywords : List String :=
  laterKeywords ++ ["exclusiveMaximum", "exclusiveMinimum", "examples", "$schema", "$ref"]

theorem ownShape_of_not_mem_narrowedKeywords {d : Draft} (hd : d ≠ .draft04) {k : String}
    (hk : k ∉ narrowedKeywords) : ownShape k d = .data fun _ => True := by
  simp only [narrowedKeywords, laterKeywords, List.cons_append, List.nil_append, List.mem_cons,
    List.not_mem_nil, not_or, or_false] at hk
  cases d with
  | draft04 => exact absurd rfl hd
  | draft06 =>
      unfold ownShape
      split <;> simp_all
  | draft07 =>
      unfold ownShape
      split <;> simp_all

theorem ownShape_draft04 (k : String) : ∃ p, ownShape k .draft04 = .data p := by
  rcases ownShape_draft04_cases k with hown | hown | hown
  · exact ⟨_, hown⟩
  · exact ⟨_, hown⟩
  · exact ⟨_, hown⟩

theorem upgrade_shapeOf {d : Draft} (hd : d ≠ .draft04) {k : String} (hk : k ∉ narrowedKeywords) :
    Upgrade k (shapeOf .draft04 k) (shapeOf d k) := by
  have hown : position k = .data → Upgrade k (ownShape k .draft04) (ownShape k d) := by
    intro hposition
    obtain ⟨p, hp⟩ := ownShape_draft04 k
    rw [hp, ownShape_of_not_mem_narrowedKeywords hd hk]
    exact .data hposition fun _ _ => trivial
  unfold shapeOf
  split
  all_goals first
    | exact .data (by decide) fun _ h => h
    | exact .data (by decide) fun _ => isCount_of_ne_draft04 hd
    | exact .data (by decide) fun _ => isNameList_of_ne_draft04 hd
    | exact .data (by decide) fun _ => isChoice_of_ne_draft04 hd
    | exact .schema (by decide)
    | exact .flagOrSchema (by decide)
    | exact .schemaOrList (by decide)
    | exact .schemaList (by decide)
    | exact .named (by decide) fun _ _ => trivial
    | exact .named (by decide) fun _ hpattern _ => hpattern rfl
    | exact .dependencies (by decide)
    | exact hown (by simp_all [position, schemaKeywords, schemasKeywords, namedKeywords,
        narrowedKeywords, laterKeywords])

theorem isNameList_migrateSchema {d : Draft} (hd : d ≠ .draft04) {v : Json}
    (h : IsNameList .draft04 v) : IsNameList d (migrateSchema v) := by
  have hlater := isNameList_of_ne_draft04 hd h
  obtain ⟨names, rfl, _⟩ := h
  exact hlater

/-- A migrated value has what the later draft asks, if the schemas in it become schemas of that
draft. -/
theorem Upgrade.fits {d : Draft} (hd : d ≠ .draft04) {k : String} {v : Json} {old new : Shape}
    (h : Upgrade k old new) (hv : Fits .draft04 old v)
    (hunder : ∀ w ∈ schemasUnder k v, IsSchema .draft04 w → IsSchema d (migrateSchema w))
    (hpatterns : k = "patternProperties" → ∀ named : Members, v = .object named →
      ∀ name ∈ named.names, Pattern.isPattern name = true) :
    Fits d new (migrateUnder k v) := by
  cases h with
  | data hposition himp =>
      rw [migrateUnder_data hposition]
      exact himp v hv
  | schema hposition =>
      simp only [migrateUnder, schemasUnder, hposition, List.mem_singleton] at hunder ⊢
      exact hunder v rfl hv
  | flagOrSchema hposition =>
      simp only [migrateUnder, schemasUnder, hposition, List.mem_singleton] at hunder ⊢
      rcases hv with ⟨b, rfl⟩ | hv
      · exact .inl ⟨b, rfl⟩
      · exact .inr (hunder v rfl hv)
  | schemaOrList hposition =>
      rcases hv with hv | ⟨items, rfl, hne, hitems⟩
      · obtain ⟨ms, rfl⟩ := isSchema_draft04 hv
        simp only [migrateUnder, schemasUnder, hposition, List.mem_singleton] at hunder ⊢
        exact .inl (hunder _ rfl hv)
      · simp only [migrateUnder, schemasUnder, hposition] at hunder ⊢
        refine .inr ⟨_, rfl, by simpa using hne, ?_⟩
        rw [List.forall_mem_map]
        exact fun w hw => hunder w hw (hitems w hw)
  | schemaList hposition =>
      obtain ⟨items, rfl, hne, hitems⟩ := hv
      simp only [migrateUnder, schemasUnder, hposition] at hunder ⊢
      refine ⟨_, rfl, by simpa using hne, ?_⟩
      rw [List.forall_mem_map]
      exact fun w hw => hunder w hw (hitems w hw)
  | named hposition hallowed =>
      obtain ⟨named, rfl, _, hnamed⟩ := hv
      simp only [migrateUnder, schemasUnder, hposition, List.forall_mem_map] at hunder ⊢
      refine ⟨_, rfl, ?_, ?_⟩
      · rw [names_mapValues]
        exact fun name hname => hallowed name fun hk => hpatterns hk named rfl name hname
      · rw [mapValues, List.forall_mem_map]
        exact fun m hm => hunder m hm (hnamed m hm)
  | dependencies hposition =>
      obtain ⟨named, rfl, hnamed⟩ := hv
      simp only [migrateUnder, schemasUnder, hposition, List.forall_mem_map] at hunder ⊢
      refine ⟨_, rfl, ?_⟩
      rw [mapValues, List.forall_mem_map]
      intro m hm
      rcases hnamed m hm with hschema | hlist
      · exact .inl (hunder m hm hschema)
      · exact .inr (isNameList_migrateSchema hd hlist)

theorem Upgrade.isSchema_of_mem {k : String} {v w : Json} {old new : Shape}
    (h : Upgrade k old new) (hv : Fits .draft04 old v) (hw : w ∈ schemasUnder k v)
    (hobject : w.isObject = true) : IsSchema .draft04 w := by
  cases h with
  | data hposition =>
      simp only [schemasUnder, hposition] at hw
      exact absurd hw List.not_mem_nil
  | schema hposition =>
      simp only [schemasUnder, hposition, List.mem_singleton] at hw
      exact hw ▸ hv
  | flagOrSchema hposition =>
      simp only [schemasUnder, hposition, List.mem_singleton] at hw
      subst hw
      rcases hv with ⟨b, rfl⟩ | hv
      · exact absurd hobject (by simp [Json.isObject])
      · exact hv
  | schemaOrList hposition =>
      rcases hv with hv | ⟨items, rfl, _, hitems⟩
      · obtain ⟨ms, rfl⟩ := isSchema_draft04 hv
        simp only [schemasUnder, hposition, List.mem_singleton] at hw
        exact hw ▸ hv
      · simp only [schemasUnder, hposition] at hw
        exact hitems w hw
  | schemaList hposition =>
      obtain ⟨items, rfl, _, hitems⟩ := hv
      simp only [schemasUnder, hposition] at hw
      exact hitems w hw
  | named hposition =>
      obtain ⟨named, rfl, _, hnamed⟩ := hv
      simp only [schemasUnder, hposition] at hw
      obtain ⟨m, hm, rfl⟩ := List.mem_map.mp hw
      exact hnamed m hm
  | dependencies hposition =>
      obtain ⟨named, rfl, hnamed⟩ := hv
      simp only [schemasUnder, hposition] at hw
      obtain ⟨m, hm, rfl⟩ := List.mem_map.mp hw
      rcases hnamed m hm with hschema | ⟨names, hnames, _⟩
      · exact hschema
      · rw [hnames] at hobject
        exact absurd hobject (by simp [Json.isObject])

/-- Wherever a schema can stand in a schema of draft 04, there stands a schema of draft 04. -/
theorem isSchema_of_hasSchema {s x : Json} (h : HasSchema s x) (hobject : x.isObject = true)
    (hs : IsSchema .draft04 s)
    (hfree : ∀ ms, HasSchema s (.object ms) → ∀ k ∈ ["contains", "propertyNames"], k ∉ names ms) :
    IsSchema .draft04 x := by
  induction h with
  | self => exact hs
  | @under ms k v w x hm hw hx ih =>
      have hwObject : w.isObject = true := by
        cases hx with
        | self => exact hobject
        | under => rfl
      refine ih hobject ?_ fun ms' h => hfree ms' (.under hm hw h)
      by_cases hk : k ∈ narrowedKeywords
      · have hposition : position k = .data := by
          have hnarrowed : ∀ k ∈ narrowedKeywords, k ∉ ["contains", "propertyNames"] →
              position k = .data := by decide
          exact hnarrowed k hk fun h => hfree ms (.self _) k h (mem_names_of_mem hm)
        simp only [schemasUnder, hposition] at hw
        exact absurd hw List.not_mem_nil
      · have hlater : Draft.draft06 ≠ .draft04 := by decide
        have hv := (isSchema_object.mp hs).2 _ hm
        exact (upgrade_shapeOf hlater hk).isSchema_of_mem hv hw hwObject

end RamlSchema.Migration
