import RamlSchema.Proofs.Fix.Fusion
import RamlSchema.Proofs.Schema.Within

/-!
# What keeps its shape when it is fixed

Fixing looks at every object alike, and a meta-schema looks at an object by the keyword that it
stands under. In draft 04 no schema is a file. So if there are no marks either, all that happens to a
schema is that a mapping under the name `examples` becomes a list. Under the keyword that is welcome.
Where `examples` is a name that an author chose, a schema is lost. In data nothing is lost, but two
values that differ can become the same.
-/

namespace RamlSchema

open Members Schema Json VendorName ExampleList

/-! ### Objects that are neither marked nor files -/

/-- No object has a name twice or a marked one. -/
structure IsPlain (v : Json) : Prop where
  names : v.HasDistinctNames
  noMark : anyObject hasMarked v = false

namespace IsPlain

theorem item {items : List Json} (h : IsPlain (.array items)) {v : Json} (hv : v ∈ items) :
    IsPlain v :=
  ⟨hasDistinctNames_array.mp h.names v hv, anyObject_array_eq_false.mp h.noMark v hv⟩

theorem member {ms : Members} (h : IsPlain (.object ms)) {m : String × Json} (hm : m ∈ ms) :
    IsPlain m.2 :=
  ⟨(hasDistinctNames_object.mp h.names).2 m hm, (anyObject_object_eq_false.mp h.noMark).2 m hm⟩

theorem of_mem_schemasIn {shape : Shape} {v w : Json} (hv : IsPlain v)
    (h : w ∈ schemasIn shape v) : IsPlain w := by
  rcases mem_schemasIn_cases h with rfl | ⟨items, rfl, hw⟩ | ⟨named, rfl, m, hm, rfl⟩
  · exact hv
  · exact hv.item hw
  · exact hv.member hm

/-- In a plain object that is no file only a mapping of examples changes its shape. -/
theorem fixSchema_object {ms : Members} (h : IsPlain (.object ms))
    (hfile : ("type", .string "file") ∉ ms) :
    fixSchema (.object ms) = .object (mapValues (fun k v => listed k (fixSchema v)) ms) := by
  have hnodup := (hasDistinctNames_object.mp h.names).1
  have hnoFile : FileType.isFile ms = false := by
    rw [FileType.isFile, decide_eq_false_iff_not]
    exact fun hfind => hfile (mem_of_find? hfind)
  have hfileStep : FileType.rule.step ms = ms := Rule.step_of_not_applies hnoFile
  have hmarkStep : unmarkAll ms = ms := by
    rw [← step_eq_unmarkAll hnodup]
    exact Rule.step_of_not_applies (anyObject_object_eq_false.mp h.noMark).1
  rw [fixSchema_object_of_nodup hnodup, hfileStep, hmarkStep]

end IsPlain

theorem not_file_of_isSchema {ms : Members} (h : IsSchema .draft04 (.object ms)) :
    ("type", .string "file") ∉ ms := by
  intro hmem
  have hkinds : IsKinds (.string "file") := (isSchema_object.mp h).2 _ hmem
  rcases hkinds with ⟨name, hname, hfile⟩ | ⟨_, hlist, _⟩
  · obtain rfl := Json.string.inj hfile
    exact absurd hname (by decide)
  · cases hlist

theorem not_file_of_forall {named : Members}
    (h : ∀ m ∈ named, IsSchema .draft04 m.2 ∨ IsNameList .draft04 m.2) :
    ("type", .string "file") ∉ named := by
  intro hmem
  rcases h _ hmem with hschema | ⟨_, hlist, _⟩
  · exact hschema
  · cases hlist

theorem fixSchema_strings (names : List String) :
    fixSchema (.array (names.map .string)) = .array (names.map .string) := by
  rw [fixSchema_array, List.map_map]
  rfl

/-- Fixing leaves the values of some kind as they are. -/
def Untouched (p : Json → Prop) : Prop :=
  ∀ v, p v → fixSchema v = v

theorem untouched_isText : Untouched IsText := by
  rintro _ ⟨s, rfl⟩
  rfl

theorem untouched_isFlag : Untouched IsFlag := by
  rintro _ ⟨b, rfl⟩
  rfl

theorem untouched_isNumber : Untouched IsNumber := by
  rintro _ ⟨n, rfl⟩
  rfl

theorem untouched_isPositive : Untouched IsPositive := by
  rintro _ ⟨n, rfl, _⟩
  rfl

theorem untouched_isCount (d : Draft) : Untouched (IsCount d) := by
  rintro _ ⟨n, rfl, _⟩
  rfl

theorem untouched_isPattern : Untouched IsPattern := by
  rintro _ ⟨s, rfl, _⟩
  rfl

theorem untouched_isNameList (d : Draft) : Untouched (IsNameList d) := by
  rintro _ ⟨names, rfl, _⟩
  exact fixSchema_strings names

theorem untouched_isKinds : Untouched IsKinds := by
  rintro _ (⟨name, _, rfl⟩ | ⟨names, rfl, _⟩)
  · rfl
  · exact fixSchema_strings names

/-! ### What keeps its shape -/

/-- A value under a keyword keeps the shape that draft 04 asks for when it is fixed, if the schemas
in it stay schemas. A mapping of schemas has to have none under the name of a list of examples, or,
where it says what properties depend on, one that is made of nothing but their names. And no two
allowed values may become the same. -/
def KeepsShape (keyword : String) (v : Json) : Prop :=
  match keyword, v with
  | "definitions", .object named => "examples" ∉ names named
  | "properties", .object named => "examples" ∉ names named
  | "patternProperties", .object named => "examples" ∉ names named
  | "dependencies", .object named =>
    ∀ es : Members, ("examples", .object es) ∈ named → IsNameList .draft04 (.array (es.map (·.2)))
  | "enum", .array items => allDistinct (items.map fixSchema) = true
  | _, _ => True

theorem keepsShape_string (keyword s : String) : KeepsShape keyword (.string s) := by
  unfold KeepsShape
  split <;> trivial

/-- All members of all schemas within a value keep their shapes. -/
abbrev KeepsShapes (v : Json) : Prop :=
  EachMember .draft04 KeepsShape v

theorem keepsShapes_of_isNameList {es : Members} (h : IsNameList .draft04 (.array (es.map (·.2)))) :
    KeepsShapes (.object es) := by
  obtain ⟨names, hnames, _⟩ := isNameList_array.mp h
  refine eachMember_object.mpr fun ⟨name, v⟩ hm => ?_
  have hmem : v ∈ names.map Json.string := hnames ▸ List.mem_map_of_mem hm
  obtain ⟨s, _, rfl⟩ := List.mem_map.mp hmem
  refine ⟨keepsShape_string _ _, fun w hw => ?_⟩
  have hself : w = .string s := by
    cases hshape : shapeOf .draft04 name <;> simp_all [schemasIn]
  exact hself ▸ eachMember_of_not_object rfl

/-- A value that has a shape still has it when it is fixed, exactly if it keeps it and the schemas in
it keep theirs. -/
def KeepsFitting (keyword : String) (shape : Shape) (v : Json) : Prop :=
  Fits .draft04 shape (fixSchema v) ↔
    KeepsShape keyword v ∧ ∀ w ∈ schemasIn shape v, KeepsShapes w

/-- A schema is still one when it is fixed, exactly if all in it keeps its shape. -/
def StaysSchema (v : Json) : Prop :=
  IsSchema .draft04 v → (IsSchema .draft04 (fixSchema v) ↔ KeepsShapes v)

section Shapes

variable {k : String} {v : Json}

theorem keepsFitting_anything (hkeep : KeepsShape k v) :
    KeepsFitting k (.data fun _ => True) v :=
  iff_of_true trivial ⟨hkeep, fun _ hw => absurd hw List.not_mem_nil⟩

theorem keepsFitting_untouched {p : Json → Prop} (hkeep : KeepsShape k v) (hp : Untouched p)
    (hv : p v) : KeepsFitting k (.data p) v := by
  have hfixed : p (fixSchema v) := (hp v hv).symm ▸ hv
  exact iff_of_true hfixed ⟨hkeep, fun _ hw => absurd hw List.not_mem_nil⟩

theorem keepsFitting_choice (hv : IsChoice .draft04 v) :
    KeepsFitting "enum" (.data (IsChoice .draft04)) v := by
  obtain ⟨items, rfl, hitems⟩ := hv
  have hne := (hitems rfl).1
  show IsChoice .draft04 (fixSchema (.array items)) ↔ allDistinct (items.map fixSchema) = true ∧ _
  rw [fixSchema_array]
  constructor
  · rintro ⟨items', hitems', hdistinct⟩
    obtain rfl := Json.array.inj hitems'
    exact ⟨(hdistinct rfl).2, fun _ hw => absurd hw List.not_mem_nil⟩
  · rintro ⟨hdistinct, _⟩
    exact ⟨_, rfl, fun _ => ⟨by simpa using hne, hdistinct⟩⟩

/-! ### Schemas and lists of schemas -/

theorem keepsFitting_schema (hkeep : KeepsShape k v) (hv : Fits .draft04 .schema v)
    (hschemas : ∀ w ∈ schemasIn .schema v, StaysSchema w) : KeepsFitting k .schema v := by
  rw [KeepsFitting, and_iff_right hkeep]
  exact (hschemas v List.mem_cons_self hv).trans List.forall_mem_singleton.symm

theorem keepsFitting_flagOrSchema (hkeep : KeepsShape k v) (hv : Fits .draft04 .flagOrSchema v)
    (hschemas : ∀ w ∈ schemasIn .flagOrSchema v, StaysSchema w) :
    KeepsFitting k .flagOrSchema v := by
  rcases hv with ⟨b, rfl⟩ | hv
  · refine iff_of_true (.inl ⟨b, rfl⟩) ⟨hkeep, List.forall_mem_singleton.mpr ?_⟩
    exact eachMember_of_not_object rfl
  · refine Iff.trans ?_ (keepsFitting_schema hkeep hv hschemas)
    obtain ⟨ms, rfl⟩ := isSchema_draft04 hv
    rw [fixSchema_object]
    refine or_iff_right fun hflag => ?_
    obtain ⟨b, hb⟩ := hflag
    cases hb

theorem keepsFitting_schemaList (hkeep : KeepsShape k v) (hv : Fits .draft04 .schemaList v)
    (hschemas : ∀ w ∈ schemasIn .schemaList v, StaysSchema w) :
    KeepsFitting k .schemaList v := by
  obtain ⟨items, rfl, hne, hitems⟩ := hv
  rw [KeepsFitting, and_iff_right hkeep, fixSchema_array, fits_schemaList_array,
    and_iff_right (by simpa using hne), List.forall_mem_map]
  exact forall₂_congr fun w hw => hschemas w hw (hitems w hw)

theorem keepsFitting_schemaOrList (hkeep : KeepsShape k v) (hv : Fits .draft04 .schemaOrList v)
    (hschemas : ∀ w ∈ schemasIn .schemaOrList v, StaysSchema w) :
    KeepsFitting k .schemaOrList v := by
  rcases hv with hv | ⟨items, rfl, hne, hitems⟩
  · obtain ⟨ms, rfl⟩ := isSchema_draft04 hv
    refine Iff.trans ?_ (keepsFitting_schema hkeep hv hschemas)
    rw [fixSchema_object]
    refine or_iff_left fun hlist => ?_
    obtain ⟨items, hitems, _⟩ := hlist
    cases hitems
  · refine Iff.trans ?_ (keepsFitting_schemaList hkeep ⟨items, rfl, hne, hitems⟩ hschemas)
    rw [fixSchema_array]
    exact or_iff_right (not_isSchema_array _)

/-! ### Schemas under names -/

/-- Under a name that an author chose: a schema is lost if that is the name of the keyword for
examples. -/
theorem isSchema_listed_iff {m : String × Json} (hm : IsSchema .draft04 m.2)
    (hstays : StaysSchema m.2) :
    IsSchema .draft04 (listed m.1 (fixSchema m.2)) ↔ m.1 ≠ "examples" ∧ KeepsShapes m.2 := by
  by_cases hname : m.1 = "examples"
  · refine iff_of_false ?_ fun h => h.1 hname
    obtain ⟨ms, hms⟩ := isSchema_draft04 hm
    rw [listed, if_pos hname, hms, fixSchema_object]
    exact not_isSchema_array _
  · rw [listed_eq_self (.inl hname), and_iff_right hname]
    exact hstays hm

theorem keepsFitting_named {allowed : String → Prop} (hallowed : ∀ name, allowed name)
    (hkeep : ∀ named : Members, KeepsShape k (.object named) ↔ "examples" ∉ names named)
    (hplain : IsPlain v) (hv : Fits .draft04 (.named allowed) v)
    (hschemas : ∀ w ∈ schemasIn (.named allowed) v, StaysSchema w) :
    KeepsFitting k (.named allowed) v := by
  obtain ⟨named, rfl, _, hnamed⟩ := hv
  have hfix := hplain.fixSchema_object (not_file_of_forall fun m hm => .inl (hnamed m hm))
  have hstays : ∀ m ∈ named, StaysSchema m.2 := fun m hm => hschemas m.2 (List.mem_map_of_mem hm)
  have hnames : "examples" ∉ names named ↔ ∀ m ∈ named, m.1 ≠ "examples" := by
    rw [names, List.mem_map]
    push Not
    rfl
  rw [KeepsFitting, hfix, fits_named_object, and_iff_right fun name _ => hallowed name, hkeep,
    hnames, schemasIn, mapValues, List.forall_mem_map, List.forall_mem_map, ← forall₂_and]
  exact forall₂_congr fun m hm => isSchema_listed_iff (hnamed m hm) (hstays m hm)

theorem map_eq_strings_iff {α : Type} {f g : α → Json} {as : List α}
    (h : ∀ a ∈ as, ∀ s, f a = .string s ↔ g a = .string s) (names : List String) :
    as.map f = names.map .string ↔ as.map g = names.map .string := by
  induction as generalizing names with
  | nil => simp
  | cons a rest ih =>
      cases names with
      | nil => simp
      | cons s names =>
          obtain ⟨ha, hrest⟩ := List.forall_mem_cons.mp h
          simp only [List.map_cons, List.cons.injEq]
          exact and_congr (ha s) (ih hrest names)

theorem isNameList_listed_iff {es : Members} (hplain : IsPlain (.object es))
    (hes : IsSchema .draft04 (.object es)) :
    IsNameList .draft04 (listed "examples" (fixSchema (.object es))) ↔
      IsNameList .draft04 (.array (es.map (·.2))) := by
  have hstring : ∀ m ∈ es, ∀ s, listed m.1 (fixSchema m.2) = .string s ↔ m.2 = .string s := by
    intro m _ s
    refine Iff.trans ?_ walks_fixSchema.eq_string_iff
    unfold listed
    split
    · cases fixSchema m.2 <;> simp [asList]
    · rfl
  rw [hplain.fixSchema_object (not_file_of_isSchema hes), listed, if_pos rfl, asList, mapValues,
    List.map_map, isNameList_array, isNameList_array]
  exact exists_congr fun names => and_congr (map_eq_strings_iff hstring names) Iff.rfl

/-- What a property depends on is a schema or a list of names, and a schema can become a list of
names. -/
theorem fits_dependency_iff {m : String × Json} (hplain : IsPlain m.2)
    (hm : IsSchema .draft04 m.2 ∨ IsNameList .draft04 m.2) (hstays : StaysSchema m.2) :
    (IsSchema .draft04 (listed m.1 (fixSchema m.2)) ∨
        IsNameList .draft04 (listed m.1 (fixSchema m.2))) ↔
      (∀ es : Members, m = ("examples", .object es) →
        IsNameList .draft04 (.array (es.map (·.2)))) ∧ KeepsShapes m.2 := by
  obtain ⟨name, w⟩ := m
  rcases hm with hschema | hlist
  · obtain ⟨es, rfl⟩ := isSchema_draft04 hschema
    rw [isSchema_listed_iff hschema hstays]
    by_cases hname : name = "examples"
    · subst hname
      have hnames := isNameList_listed_iff hplain hschema
      have hkeep := @keepsShapes_of_isNameList es
      simpa [hnames] using hkeep
    · have hno : ¬IsNameList .draft04 (listed name (fixSchema (.object es))) := by
        rw [listed_eq_self (.inl hname), fixSchema_object]
        rintro ⟨names, hnames, _⟩
        cases hnames
      simp [hno, hname]
  · obtain ⟨names, rfl, hnodup, hne⟩ := hlist
    rw [fixSchema_strings, listed_eq_self (.inr rfl)]
    refine iff_of_true (.inr ⟨names, rfl, hnodup, hne⟩) ⟨fun es hes => ?_, ?_⟩
    · cases (Prod.mk.inj hes).2
    · exact eachMember_of_not_object rfl

theorem keepsFitting_dependencies (hplain : IsPlain v) (hv : Fits .draft04 .dependencies v)
    (hschemas : ∀ w ∈ schemasIn .dependencies v, StaysSchema w) :
    KeepsFitting "dependencies" .dependencies v := by
  obtain ⟨named, rfl, hnamed⟩ := hv
  have hfix := hplain.fixSchema_object (not_file_of_forall hnamed)
  have hstays : ∀ m ∈ named, StaysSchema m.2 := fun m hm => hschemas m.2 (List.mem_map_of_mem hm)
  have hkeep : KeepsShape "dependencies" (.object named) ↔ ∀ m ∈ named, ∀ es : Members,
      m = ("examples", .object es) → IsNameList .draft04 (.array (es.map (·.2))) := by
    constructor
    · rintro h _ hm es rfl
      exact h es hm
    · exact fun h es hm => h _ hm es rfl
  rw [KeepsFitting, hfix, fits_dependencies_object, hkeep, schemasIn, mapValues,
    List.forall_mem_map, List.forall_mem_map, ← forall₂_and]
  exact forall₂_congr fun m hm => fits_dependency_iff (hplain.member hm) (hnamed m hm) (hstays m hm)

/-! ### All keywords -/

theorem keepsFitting_ownShape (hkeep : KeepsShape k v) :
    Fits .draft04 (ownShape k .draft04) v → KeepsFitting k (ownShape k .draft04) v := by
  rcases ownShape_draft04_cases k with hown | hown | hown
  · rw [hown]
    exact keepsFitting_untouched hkeep untouched_isText
  · rw [hown]
    exact keepsFitting_untouched hkeep untouched_isFlag
  · rw [hown]
    exact fun _ => keepsFitting_anything hkeep

theorem keepsFitting_shapeOf (hplain : IsPlain v) :
    Fits .draft04 (shapeOf .draft04 k) v →
      (∀ w ∈ schemasIn (shapeOf .draft04 k) v, StaysSchema w) →
        KeepsFitting k (shapeOf .draft04 k) v := by
  have hdata : ∀ {p : Json → Prop}, KeepsShape k v → Untouched p → p v →
      (∀ w ∈ schemasIn (.data p) v, StaysSchema w) → KeepsFitting k (.data p) v :=
    fun hkeep hp hv _ => keepsFitting_untouched hkeep hp hv
  unfold shapeOf
  split
  all_goals first
    | exact hdata trivial untouched_isText
    | exact hdata trivial untouched_isPositive
    | exact hdata trivial untouched_isNumber
    | exact hdata trivial (untouched_isCount _)
    | exact hdata trivial untouched_isPattern
    | exact hdata trivial untouched_isFlag
    | exact hdata trivial (untouched_isNameList _)
    | exact hdata trivial untouched_isKinds
    | exact fun hv _ => keepsFitting_choice hv
    | exact keepsFitting_schema trivial
    | exact keepsFitting_flagOrSchema trivial
    | exact keepsFitting_schemaOrList trivial
    | exact keepsFitting_schemaList trivial
    | exact keepsFitting_named (fun _ => trivial) (fun _ => Iff.rfl) hplain
    | exact keepsFitting_named (fun _ h => absurd h (by decide)) (fun _ => Iff.rfl) hplain
    | exact keepsFitting_dependencies hplain
    | exact fun hv _ => keepsFitting_ownShape (by unfold KeepsShape; split <;> simp_all) hv

end Shapes

end RamlSchema
