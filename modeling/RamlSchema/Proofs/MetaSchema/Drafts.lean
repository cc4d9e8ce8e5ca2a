import RamlSchema.Proofs.MetaSchema.Subschemas

/-!
# What the meta-schemas decide

The tables of keywords of the three meta-schemas, each beside the shapes that its draft asks for. A
table says nothing of a name that is not in it, and neither does the draft; so the check of a table
decides that all members of an object fit. With that the claim for values of less than some depth
gives the claim for the next depth, and every value has a depth.
-/

namespace RamlSchema.MetaSchema

open Schema

variable {m : MetaSchema} {d : Draft} {bound n : Nat} {place : List Step} {v : Json}

theorem decides_names04 :
    Decides (check m (n + 2) Draft04.nameList place v) (IsNameList .draft04 v) := by
  refine decides_keywords_type ?_ fun harray => ?_
  · intro h
    obtain ⟨names, hv, _⟩ := h
    exact isOfKind_array.mpr ⟨_, hv⟩
  obtain ⟨items, rfl⟩ := isOfKind_array.mp harray
  refine (decides_inOrder_cons (decides_items fun w _ _ => decides_text) fun _ =>
    decides_inOrder_cons decides_minItems_one fun _ =>
      decides_inOrder_singleton decides_uniqueItems).congr ?_
  rw [forall_isText_iff]
  constructor
  · intro h
    obtain ⟨⟨names, rfl⟩, hne, hdistinct⟩ := h
    exact ⟨names, rfl, (allDistinct_strings names).mp hdistinct, fun _ => by simpa using hne⟩
  · intro h
    obtain ⟨names, hitems, hnodup, hne⟩ := h
    obtain rfl := Json.array.inj hitems
    exact ⟨⟨names, rfl⟩, by simpa using hne rfl, (allDistinct_strings names).mpr hnodup⟩

theorem decides_namesLater (hd : d ≠ .draft04) :
    Decides (check m (n + 2) Later.nameList place v) (IsNameList d v) := by
  refine decides_keywords_type ?_ fun harray => ?_
  · intro h
    obtain ⟨names, hv, _⟩ := h
    exact isOfKind_array.mpr ⟨_, hv⟩
  obtain ⟨items, rfl⟩ := isOfKind_array.mp harray
  refine (decides_inOrder_cons (decides_items fun w _ _ => decides_text) fun _ =>
    decides_inOrder_singleton decides_uniqueItems).congr ?_
  rw [forall_isText_iff]
  constructor
  · intro h
    obtain ⟨⟨names, rfl⟩, hdistinct⟩ := h
    exact ⟨names, rfl, (allDistinct_strings names).mp hdistinct, fun heq => absurd heq hd⟩
  · intro h
    obtain ⟨names, hitems, hnodup, _⟩ := h
    obtain rfl := Json.array.inj hitems
    exact ⟨⟨names, rfl⟩, (allDistinct_strings names).mpr hnodup⟩

theorem decides_choice04 :
    Decides (check m (n + 1) (.keywords [.type [.array], .minItems 1, .uniqueItems]) place v)
      (IsChoice .draft04 v) := by
  refine decides_keywords_type ?_ fun harray => ?_
  · intro h
    obtain ⟨items, hv, _⟩ := h
    exact isOfKind_array.mpr ⟨items, hv⟩
  obtain ⟨items, rfl⟩ := isOfKind_array.mp harray
  refine (decides_inOrder_cons decides_minItems_one fun _ =>
    decides_inOrder_singleton decides_uniqueItems).congr ?_
  simp [IsChoice]

theorem decides_choiceLater (hd : d ≠ .draft04) :
    Decides (check m (n + 1) (.ofKind .array) place v) (IsChoice d v) :=
  decides_array.congr (by simp [IsArray, IsChoice, hd])

theorem reads04 : Reads Draft04.metaSchema .draft04 where
  wholeFloats := by simp [Draft04.metaSchema, assemble]
  schemaList := rfl
  count := rfl
  countOrZero := rfl
  simpleType := rfl
  nameList _ _ _ := decides_names04

theorem reads06 : Reads Later.metaSchema06 .draft06 where
  wholeFloats := by simp [Later.metaSchema06, assemble]
  schemaList := rfl
  count := rfl
  countOrZero := rfl
  simpleType := rfl
  nameList _ _ _ := decides_namesLater (by simp)

theorem reads07 : Reads Later.metaSchema07 .draft07 where
  wholeFloats := by simp [Later.metaSchema07, assemble]
  schemaList := rfl
  count := rfl
  countOrZero := rfl
  simpleType := rfl
  nameList _ _ _ := decides_namesLater (by simp)

/-! ### The tables -/

/-- Every node of a table decides the shape that a draft asks for under its keyword. -/
def TableDecides (m : MetaSchema) (d : Draft) (n : Nat) (v : Json)
    (named : List (String × Node)) : Prop :=
  ∀ entry ∈ named, ∀ place, Decides (check m n entry.2 place v) (Fits d (shapeOf d entry.1) v)

theorem tableDecides_scalars (hm : Reads m d) (hd : d ≠ .draft04) (hn : 4 ≤ n) :
    TableDecides m d (n + 3) v Later.scalars := by
  obtain ⟨k, rfl⟩ : ∃ k, n = k + 4 := ⟨n - 4, by omega⟩
  simp only [TableDecides, Later.scalars, List.forall_mem_cons, shapeOf_exclusive hd]
  exact ⟨fun _ => decides_divisor, fun _ => decides_number, fun _ => decides_number,
    fun _ => decides_number, fun _ => decides_number, fun _ => decides_count hm,
    fun _ => decides_countOrZero hm, fun _ => decides_textOf .regex, List.forall_mem_nil _⟩

section Tables

variable (hm : Reads m d) (hbelow : DecidesBelow m d bound) (hnames : v.HasDistinctNames)
  (hdepth : v.depth < bound) (hn : 4 * (v.depth + 1) ≤ n)
include hm hbelow hnames hdepth hn

theorem tableDecides_properties04 (hd : d = .draft04) :
    TableDecides m d (n + 3) v Draft04.properties := by
  obtain ⟨k, rfl⟩ : ∃ k, n = k + 4 := ⟨n - 4, by omega⟩
  subst hd
  have hflagOrSchema : ∀ place, Decides (check m (k + 7) Draft04.schemaOrFlag place v)
      (Fits .draft04 .flagOrSchema v) := fun _ => decides_schemaOrFlag hbelow hnames hdepth hn
  have hnamed : ∀ place, Decides (check m (k + 7) .namedSchemas place v)
      (Fits .draft04 (.named fun _ => True) v) := fun _ =>
    decides_namedSchemas hbelow hnames hdepth hn
  have hlist : ∀ place, Decides (check m (k + 7) (.reference .schemaList) place v)
      (Fits .draft04 .schemaList v) := fun _ =>
    decides_schemaList hm hbelow hnames hdepth (by omega)
  simp only [TableDecides, Draft04.properties, List.forall_mem_cons]
  exact ⟨fun _ => decides_text, fun _ => decides_text, fun _ => decides_text,
    fun _ => decides_text, fun _ => decides_anything, fun _ => decides_divisor,
    fun _ => decides_number, fun _ => decides_flag, fun _ => decides_number,
    fun _ => decides_flag, fun _ => decides_count hm, fun _ => decides_countOrZero hm,
    fun _ => decides_textOf .regex, hflagOrSchema,
    fun _ => decides_schemaOrList hm hbelow hnames hdepth hn, fun _ => decides_count hm,
    fun _ => decides_countOrZero hm, fun _ => decides_flag, fun _ => decides_count hm,
    fun _ => decides_countOrZero hm, fun _ => decides_nameList hm, hflagOrSchema, hnamed, hnamed,
    fun place => (hnamed place).congr (by simp [Fits, shapeOf]),
    fun _ => decides_dependencyTable hm hbelow hnames hdepth hn, fun _ => decides_choice04,
    fun _ => decides_types hm, fun _ => decides_text, hlist, hlist, hlist,
    fun _ => hbelow.reference hnames hdepth (by omega), List.forall_mem_nil _⟩

theorem tableDecides_containers (hd : d ≠ .draft04) :
    TableDecides m d (n + 3) v Later.containers := by
  obtain ⟨k, rfl⟩ : ∃ k, n = k + 4 := ⟨n - 4, by omega⟩
  have hschema : ∀ place, Decides (check m (k + 7) (.reference .root) place v)
      (IsSchema d v) := fun _ => hbelow.reference hnames hdepth (by omega)
  have hflag : IsFlag v → IsSchema d v := by
    intro h
    obtain ⟨b, rfl⟩ := h
    exact isSchema_boolean.mpr hd
  have hflagOrSchema : ∀ place, Decides (check m (k + 7) (.reference .root) place v)
      (Fits d .flagOrSchema v) := fun place =>
    (hschema place).congr ⟨Or.inr, fun h => h.elim hflag id⟩
  have hnamed : ∀ place, Decides (check m (k + 7) .namedSchemas place v)
      (Fits d (.named fun _ => True) v) := fun _ =>
    decides_namedSchemas hbelow hnames hdepth hn
  simp only [TableDecides, Later.containers, List.forall_mem_cons, shapeOf_contains hd]
  exact ⟨hflagOrSchema, fun _ => decides_schemaOrList hm hbelow hnames hdepth hn,
    fun _ => decides_count hm, fun _ => decides_countOrZero hm, fun _ => decides_flag,
    hschema, fun _ => decides_count hm, fun _ => decides_countOrZero hm,
    fun _ => decides_nameList hm, hflagOrSchema, hnamed, hnamed, List.forall_mem_nil _⟩

theorem tableDecides_values (hd : d ≠ .draft04) : TableDecides m d (n + 3) v Later.values := by
  obtain ⟨k, rfl⟩ : ∃ k, n = k + 4 := ⟨n - 4, by omega⟩
  simp only [TableDecides, Later.values, List.forall_mem_cons, shapeOf_propertyNames hd,
    shapeOf_const]
  exact ⟨fun _ => decides_dependencyTable hm hbelow hnames hdepth hn,
    fun _ => hbelow.reference hnames hdepth (by omega), fun _ => decides_anything,
    fun _ => decides_choiceLater hd, fun _ => decides_types hm, fun _ => decides_text, List.forall_mem_nil _⟩

theorem tableDecides_combinations : TableDecides m d (n + 3) v Later.combinations := by
  have hlist : ∀ place, Decides (check m (n + 3) (.reference .schemaList) place v)
      (Fits d .schemaList v) := fun _ =>
    decides_schemaList hm hbelow hnames hdepth (by omega)
  simp only [TableDecides, Later.combinations, List.forall_mem_cons]
  exact ⟨hlist, hlist, hlist, fun _ => hbelow.reference hnames hdepth (by omega), List.forall_mem_nil _⟩

theorem tableDecides_properties06 (hd : d = .draft06) :
    TableDecides m d (n + 3) v Later.properties06 := by
  have hlater : d ≠ .draft04 := by simp [hd]
  have hscalars := tableDecides_scalars (v := v) hm hlater (by omega : 4 ≤ n)
  have hcontainers := tableDecides_containers hm hbelow hnames hdepth hn hlater
  have hvalues := tableDecides_values hm hbelow hnames hdepth hn hlater
  have hcombinations := tableDecides_combinations hm hbelow hnames hdepth hn
  subst hd
  have hpatterns : ∀ place, Decides (check m (n + 3) .namedSchemas place v)
      (Fits .draft06 (shapeOf .draft06 "patternProperties") v) := fun place =>
    (decides_namedSchemas hbelow hnames hdepth hn).congr (by simp [Fits, shapeOf])
  simp only [TableDecides, Later.properties06, Later.references, List.forall_mem_append,
    List.forall_mem_cons]
  exact ⟨⟨⟨⟨⟨⟨⟨fun _ => decides_textOf .uriReference, fun _ => decides_textOf .uri,
    fun _ => decides_textOf .uriReference, List.forall_mem_nil _⟩, fun _ => decides_text, fun _ => decides_text,
    fun _ => decides_anything, fun _ => decides_examples, List.forall_mem_nil _⟩, hscalars⟩, hcontainers⟩,
    hpatterns, List.forall_mem_nil _⟩, hvalues⟩, hcombinations⟩

theorem tableDecides_properties07 (hd : d = .draft07) :
    TableDecides m d (n + 3) v Later.properties07 := by
  have hlater : d ≠ .draft04 := by simp [hd]
  have hscalars := tableDecides_scalars (v := v) hm hlater (by omega : 4 ≤ n)
  have hcontainers := tableDecides_containers hm hbelow hnames hdepth hn hlater
  have hvalues := tableDecides_values hm hbelow hnames hdepth hn hlater
  have hcombinations := tableDecides_combinations hm hbelow hnames hdepth hn
  subst hd
  have hpatterns : ∀ place, Decides (check m (n + 3) Later.patternSchemas place v)
      (Fits .draft07 (shapeOf .draft07 "patternProperties") v) := fun place =>
    (decides_patternSchemas hbelow hnames hdepth hn).congr (by simp [Fits, shapeOf])
  have hschema : ∀ place, Decides (check m (n + 3) (.reference .root) place v)
      (IsSchema .draft07 v) := fun _ => hbelow.reference hnames hdepth (by omega)
  simp only [TableDecides, Later.properties07, Later.references, List.forall_mem_append,
    List.forall_mem_cons]
  exact ⟨⟨⟨⟨⟨⟨⟨⟨fun _ => decides_textOf .uriReference, fun _ => decides_textOf .uri,
    fun _ => decides_textOf .uriReference, List.forall_mem_nil _⟩, fun _ => decides_text, fun _ => decides_text,
    fun _ => decides_text, fun _ => decides_anything, fun _ => decides_flag,
    fun _ => decides_flag, fun _ => decides_examples, List.forall_mem_nil _⟩, hscalars⟩, hcontainers⟩,
    hpatterns, List.forall_mem_nil _⟩, hvalues⟩, fun _ => decides_text, fun _ => decides_text, hschema, hschema,
    hschema, List.forall_mem_nil _⟩, hcombinations⟩

end Tables

/-! ### Names that are in no table -/

theorem ownShape_not_mem_properties04 {keyword : String}
    (h : keyword ∉ Draft04.properties.map (·.1)) :
    ownShape keyword .draft04 = .data fun _ => True := by
  unfold ownShape
  dsimp only
  split
  all_goals first
    | exact absurd (by decide) h
    | rfl

theorem shapeOf_not_mem_properties04 {keyword : String}
    (h : keyword ∉ Draft04.properties.map (·.1)) :
    shapeOf .draft04 keyword = .data fun _ => True := by
  unfold shapeOf
  split
  all_goals first
    | exact absurd (by decide) h
    | exact ownShape_not_mem_properties04 h

theorem ownShape_not_mem_properties06 {keyword : String}
    (h : keyword ∉ Later.properties06.map (·.1)) :
    ownShape keyword .draft06 = .data fun _ => True := by
  unfold ownShape
  dsimp only
  split
  all_goals first
    | exact absurd (by decide) h
    | rfl

theorem shapeOf_not_mem_properties06 {keyword : String}
    (h : keyword ∉ Later.properties06.map (·.1)) :
    shapeOf .draft06 keyword = .data fun _ => True := by
  unfold shapeOf
  split
  all_goals first
    | exact absurd (by decide) h
    | exact ownShape_not_mem_properties06 h

theorem ownShape_not_mem_properties07 {keyword : String}
    (h : keyword ∉ Later.properties07.map (·.1)) :
    ownShape keyword .draft07 = .data fun _ => True := by
  unfold ownShape
  dsimp only
  split
  all_goals first
    | exact absurd (by decide) h
    | rfl

theorem shapeOf_not_mem_properties07 {keyword : String}
    (h : keyword ∉ Later.properties07.map (·.1)) :
    shapeOf .draft07 keyword = .data fun _ => True := by
  unfold shapeOf
  split
  all_goals first
    | exact absurd (by decide) h
    | exact ownShape_not_mem_properties07 h

end RamlSchema.MetaSchema
