import RamlSchema.Proofs.Json.Alike
import RamlSchema.Proofs.Schema.Within
import RamlSchema.Proofs.Validity

/-!
# Schemas and the order of members

No keyword asks in which order the members of an object stand, save one: draft 04 asks that no two
allowed values are the same, and objects with the same members in another order are not. Putting the
members of a schema in another order keeps it a schema, then, unless it makes two allowed values the
same.
-/

namespace RamlSchema.Schema

open Json

variable {d : Draft} {v w : Json}

/-- What is asked of a value does not depend on the order of members in it. -/
def IgnoresOrder (holds : Json → Prop) : Prop :=
  ∀ v w, Alike v w → holds v → holds w

theorem ignoresOrder_of_scalar {holds : Json → Prop} (h : ∀ v, holds v → v.depth = 0) :
    IgnoresOrder holds := by
  intro v w halike hv
  rwa [halike.eq_of_depth_eq_zero (h v hv)]

@[simp] theorem ignoresOrder_isText : IgnoresOrder IsText :=
  ignoresOrder_of_scalar (by rintro _ ⟨s, rfl⟩; rfl)

@[simp] theorem ignoresOrder_isFlag : IgnoresOrder IsFlag :=
  ignoresOrder_of_scalar (by rintro _ ⟨b, rfl⟩; rfl)

@[simp] theorem ignoresOrder_isNumber : IgnoresOrder IsNumber :=
  ignoresOrder_of_scalar (by rintro _ ⟨n, rfl⟩; rfl)

@[simp] theorem ignoresOrder_isPositive : IgnoresOrder IsPositive :=
  ignoresOrder_of_scalar (by rintro _ ⟨n, rfl, _⟩; rfl)

@[simp] theorem ignoresOrder_isCount (d : Draft) : IgnoresOrder (IsCount d) :=
  ignoresOrder_of_scalar (by rintro _ ⟨n, rfl, _⟩; rfl)

@[simp] theorem ignoresOrder_isPattern : IgnoresOrder IsPattern :=
  ignoresOrder_of_scalar (by rintro _ ⟨s, rfl, _⟩; rfl)

@[simp] theorem ignoresOrder_isUri : IgnoresOrder IsUri :=
  ignoresOrder_of_scalar (by rintro _ ⟨s, rfl, _⟩; rfl)

@[simp] theorem ignoresOrder_isReference : IgnoresOrder IsReference :=
  ignoresOrder_of_scalar (by rintro _ ⟨s, rfl, _⟩; rfl)

@[simp] theorem ignoresOrder_isArray : IgnoresOrder IsArray := by
  rintro v w halike ⟨items, rfl⟩
  obtain ⟨items', rfl, _⟩ := halike.exists_array
  exact ⟨items', rfl⟩

theorem eq_of_strings {names : List String} (h : Alike (.array (names.map .string)) w) :
    w = .array (names.map .string) := by
  obtain ⟨items, rfl, hitems⟩ := h.exists_array
  clear h
  congr 1
  induction names generalizing items with
  | nil => exact List.forall₂_nil_left_iff.mp hitems
  | cons s names ih =>
      obtain ⟨v, rest, hv, hrest, rfl⟩ := List.forall₂_cons_left_iff.mp hitems
      rw [List.map_cons, hv.string_eq, ih rest hrest]

@[simp] theorem ignoresOrder_isNameList (d : Draft) : IgnoresOrder (IsNameList d) := by
  rintro v w halike ⟨names, rfl, hnames⟩
  exact ⟨names, eq_of_strings halike, hnames⟩

@[simp] theorem ignoresOrder_isKinds : IgnoresOrder IsKinds := by
  rintro v w halike (⟨name, hname, rfl⟩ | ⟨names, rfl, hnames⟩)
  · exact .inl ⟨name, hname, halike.string_eq⟩
  · exact .inr ⟨names, eq_of_strings halike, hnames⟩

@[simp] theorem ignoresOrder_true : IgnoresOrder fun _ => True :=
  fun _ _ _ _ => trivial

/-- Two allowed values may become the same in another order, so that they differ is asked of the
result. -/
theorem isChoice_of_alike (halike : Alike v w)
    (hdiffer : d = .draft04 → ∀ items, w = .array items → allDistinct items = true)
    (h : IsChoice d v) : IsChoice d w := by
  obtain ⟨items, rfl, hitems⟩ := h
  obtain ⟨items', rfl, halikes⟩ := halike.exists_array
  exact ⟨items', rfl, fun hd =>
    ⟨Alike.ne_nil_of_items halikes (hitems hd).1, hdiffer hd items' rfl⟩⟩

/-- If data stands under a keyword, what is asked of it does not depend on the order. -/
def Shape.IgnoresOrder : Shape → Prop
  | .data holds => Schema.IgnoresOrder holds
  | _ => True

theorem ignoresOrder_ownShape (k : String) (d : Draft) : (ownShape k d).IgnoresOrder := by
  unfold ownShape
  repeat' split
  all_goals simp [Shape.IgnoresOrder]

/-- Of all keywords, the allowed values alone may depend on the order. -/
theorem ignoresOrder_shapeOf {k : String} (hk : k ≠ "enum") : (shapeOf d k).IgnoresOrder := by
  unfold shapeOf
  split
  all_goals first
    | exact ignoresOrder_ownShape k d
    | exact absurd rfl hk
    | simp [Shape.IgnoresOrder]

/-! ### Schemas -/

/-- No two allowed values are the same in the schemas within a value. -/
def ChoicesDiffer (v : Json) : Prop :=
  EachMember .draft04 (fun k w => k = "enum" → ∀ items, w = .array items →
    allDistinct items = true) v

theorem Fits.of_alike {shape : Shape} (halike : Alike v w) (hnames : w.HasDistinctNames)
    (hdata : shape.IgnoresOrder)
    (hschemas : ∀ u' ∈ schemasIn shape w, ∀ u, u.depth ≤ v.depth → Alike u u' → IsSchema d u →
      IsSchema d u')
    (h : Fits d shape v) : Fits d shape w := by
  have hself : w ∈ schemasIn shape w → IsSchema d v → IsSchema d w := fun hmem =>
    hschemas w hmem v (Nat.le_refl _) halike
  have hlist : (∀ items', w = .array items' → schemasIn shape w = items') →
      (∃ items, v = .array items ∧ items ≠ [] ∧ ∀ u ∈ items, IsSchema d u) →
      ∃ items', w = .array items' ∧ items' ≠ [] ∧ ∀ u ∈ items', IsSchema d u := by
    rintro hin ⟨items, rfl, hne, hitems⟩
    obtain ⟨items', rfl, halikes⟩ := halike.exists_array
    refine ⟨items', rfl, Alike.ne_nil_of_items halikes hne, fun u' hu' => ?_⟩
    obtain ⟨u, hu, huu'⟩ := Alike.exists_of_mem_items halikes hu'
    have hmem : u' ∈ schemasIn shape (.array items') := by rwa [hin items' rfl]
    exact hschemas u' hmem u (Nat.le_of_lt (depth_lt_of_mem_array hu)) huu' (hitems u hu)
  cases shape with
  | data holds => exact hdata v w halike h
  | schema => exact hself (List.mem_singleton_self w) h
  | flagOrSchema =>
      exact h.imp (ignoresOrder_isFlag v w halike) (hself (List.mem_singleton_self w))
  | schemaOrList =>
      rcases h with hschema | hitems
      · refine .inl (hself ?_ hschema)
        rcases isSchema_cases hschema with ⟨ms, rfl⟩ | ⟨_, b, rfl⟩
        · obtain ⟨ms', rfl⟩ := halike.exists_object
          exact List.mem_singleton_self _
        · rw [halike.eq_of_depth_eq_zero rfl]
          exact List.mem_singleton_self _
      · exact .inr (hlist (fun items' hw => by rw [hw, schemasIn]) hitems)
  | schemaList => exact hlist (fun items' hw => by rw [hw, schemasIn]) h
  | named allowed =>
      obtain ⟨named, rfl, hallowed, hnamed⟩ := h
      obtain ⟨named', rfl⟩ := halike.exists_object
      have hnodup := (hasDistinctNames_object.mp hnames).1
      refine ⟨named', rfl, fun name hname => ?_, fun m hm => ?_⟩
      · exact hallowed name (halike.names_perm.mem_iff.mpr hname)
      · obtain ⟨u, hu, halike⟩ := halike.exists_mem hnodup hm
        exact hschemas m.2 (List.mem_map_of_mem hm) u (Nat.le_of_lt (depth_lt_of_mem_object hu))
          halike (hnamed _ hu)
  | dependencies =>
      obtain ⟨named, rfl, hnamed⟩ := h
      obtain ⟨named', rfl⟩ := halike.exists_object
      have hnodup := (hasDistinctNames_object.mp hnames).1
      refine ⟨named', rfl, fun m hm => ?_⟩
      obtain ⟨u, hu, halike⟩ := halike.exists_mem hnodup hm
      refine (hnamed _ hu).imp ?_ (ignoresOrder_isNameList d u m.2 halike)
      exact hschemas m.2 (List.mem_map_of_mem hm) u (Nat.le_of_lt (depth_lt_of_mem_object hu))
        halike

theorem flagsHaveBounds_of_alike {ms ms' : Members} (h : Alike (.object ms) (.object ms'))
    (hflags : FlagsHaveBounds ms) : FlagsHaveBounds ms' := by
  simpa only [FlagsHaveBounds, h.names_perm.mem_iff] using hflags

/-- A schema in another order is a schema, as long as draft 04 still finds its allowed values
different. -/
theorem isSchema_of_alike (halike : Alike v w) (hnames : w.HasDistinctNames)
    (hchoices : d = .draft04 → ChoicesDiffer w) (h : IsSchema d v) : IsSchema d w := by
  induction hdepth : v.depth using Nat.strongRecOn generalizing v w with
  | ind depth ih =>
      rcases isSchema_cases h with ⟨ms, rfl⟩ | ⟨hd, b, rfl⟩
      · obtain ⟨ms', rfl⟩ := halike.exists_object
        obtain ⟨hnodup, hvalues⟩ := hasDistinctNames_object.mp hnames
        rw [isSchema_object] at h ⊢
        refine ⟨fun hd => flagsHaveBounds_of_alike halike (h.1 hd), fun m hm => ?_⟩
        obtain ⟨u, hu, huAlike⟩ := halike.exists_mem hnodup hm
        have hfits := h.2 _ hu
        by_cases henum : m.1 = "enum"
        · rw [henum] at hfits ⊢
          refine isChoice_of_alike huAlike (fun hd => ?_) hfits
          exact (eachMember_object.mp (hchoices hd) m hm).1 henum
        · refine hfits.of_alike huAlike (hvalues m hm) (ignoresOrder_shapeOf henum) ?_
          intro t' ht' t ht htAlike hschema
          have hinner : u.depth < (Json.object ms).depth := depth_lt_of_mem_object hu
          refine ih t.depth (by omega) htAlike ?_ (fun hd => ?_) hschema rfl
          · exact hasDistinctNames_of_mem_schemasIn (hvalues m hm) ht'
          · subst hd
            exact (eachMember_object.mp (hchoices rfl) m hm).2 t' ht'
      · rw [halike.eq_of_depth_eq_zero rfl]
        exact h

/-- The allowed values of a schema of draft 04 differ, at whatever depth they stand. -/
theorem choicesDiffer_of_isSchema (h : IsSchema .draft04 v) : ChoicesDiffer v := by
  intro ms hms m hm henum items hitems
  have hfits := (isSchema_object.mp (hms.isSchema h)).2 m hm
  rw [henum] at hfits
  obtain ⟨items', hitems', hchoice⟩ := hfits
  obtain rfl := Json.array.inj (hitems.symm.trans hitems')
  exact (hchoice rfl).2

end RamlSchema.Schema

namespace RamlSchema

open Json Schema

variable {v w : Json}

theorem member?_string_of_alike {name s : String} (halike : Alike v w)
    (h : v.member? name = some (.string s)) : w.member? name = some (.string s) := by
  obtain ⟨u, hu, hvalue⟩ := halike.exists_member? h
  rw [hu, hvalue.string_eq]

theorem member?_eq_none_of_alike {name : String} (halike : Alike v w)
    (h : v.member? name = none) : w.member? name = none := by
  cases hw : w.member? name with
  | none => rfl
  | some u =>
      obtain ⟨t, ht, _⟩ := halike.symm.exists_member? hw
      rw [h] at ht
      cases ht

theorem declaredDraft_of_alike {d : Draft} (halike : Alike v w) (h : declaredDraft v = .ok d) :
    declaredDraft w = .ok d := by
  rw [declaredDraft_eq_ok_iff] at h ⊢
  exact h.imp (And.imp_left (member?_eq_none_of_alike halike))
    (Exists.imp fun uri => And.imp_left (member?_string_of_alike halike))

theorem validateAs_eq_ok_of_alike {d : Draft} (halike : Alike v w) (hnames : v.HasDistinctNames)
    (hchoices : d = .draft04 → ChoicesDiffer w) (h : validateAs d v = .ok ()) :
    validateAs d w = .ok () := by
  have hnames' := halike.hasDistinctNames hnames
  rw [validateAs_eq_ok_iff d hnames] at h
  exact (validateAs_eq_ok_iff d hnames').mpr (isSchema_of_alike halike hnames' hchoices h)

theorem validate_eq_validateAs {d : Draft} (h : declaredDraft v = .ok d) :
    validate v = validateAs d v := by
  rw [validate, h]

/-- **The order of members does not decide whether a schema is valid**, except that draft 04 tells
allowed values apart by it. A schema and what becomes of it in another order declare the same draft.
Of drafts 06 and 07 both are valid or neither is. Of draft 04 a valid schema stays valid if and only
if its allowed values still differ from each other. -/
theorem validate_eq_ok_iff_of_alike (hnames : v.HasDistinctNames) (halike : Alike v w) :
    (∀ d, declaredDraft v = .ok d ↔ declaredDraft w = .ok d) ∧
    (declaredDraft v ≠ .ok .draft04 → (validate v = .ok () ↔ validate w = .ok ())) ∧
    (declaredDraft v = .ok .draft04 → validate v = .ok () →
      (validate w = .ok () ↔ ChoicesDiffer w)) := by
  have hdrafts : ∀ d, declaredDraft v = .ok d ↔ declaredDraft w = .ok d := fun d =>
    ⟨declaredDraft_of_alike halike, declaredDraft_of_alike halike.symm⟩
  have hnames' := halike.hasDistinctNames hnames
  refine ⟨hdrafts, fun hdraft => ?_, fun hdraft hvalid => ?_⟩
  · rw [validate_eq_ok_iff_validateAs, validate_eq_ok_iff_validateAs]
    refine exists_congr fun d => ?_
    rw [← hdrafts]
    refine and_congr_right fun hd => ?_
    have hlater : d ≠ .draft04 := fun h => hdraft (h ▸ hd)
    exact ⟨validateAs_eq_ok_of_alike halike hnames fun h => absurd h hlater,
      validateAs_eq_ok_of_alike halike.symm hnames' fun h => absurd h hlater⟩
  · rw [validate_eq_validateAs hdraft] at hvalid
    rw [validate_eq_validateAs ((hdrafts _).mp hdraft)]
    constructor
    · intro h
      exact choicesDiffer_of_isSchema ((validateAs_eq_ok_iff _ hnames').mp h)
    · intro h
      exact validateAs_eq_ok_of_alike halike hnames (fun _ => h) hvalid

/-- `pairSchema` in another order, at its root and in one of its items. -/
def reorderedPairSchema : Json :=
  .object [
    ("items", .array [
      .object [("exclusiveMaximum", .number (.integer 3)), ("type", .string "number")],
      .object [("type", .string "string"), ("not", .boolean false)]]),
    ("type", .array [.string "array", .string "null"]),
    ("dependencies", .object [("left", .array []), ("right", .boolean true)]),
    ("$schema", .string "https://json-schema.org/draft-07/schema")]

theorem validate_reorderedPairSchema :
    pairSchema.HasDistinctNames ∧ Alike pairSchema reorderedPairSchema ∧
      validate reorderedPairSchema = .ok () := by
  have hnames : pairSchema.HasDistinctNames := by
    simp [pairSchema, Json.HasDistinctNames, Json.ItemsHaveDistinctNames,
      Json.MembersHaveDistinctNames]
  have hitems : Alike
      (.array [
        .object [("type", .string "number"), ("exclusiveMaximum", .number (.integer 3))],
        .object [("type", .string "string"), ("not", .boolean false)]])
      (.array [
        .object [("exclusiveMaximum", .number (.integer 3)), ("type", .string "number")],
        .object [("type", .string "string"), ("not", .boolean false)]]) :=
    .array_cons (.of_perm (by decide) (by decide)) (.refl _)
  have halike : Alike pairSchema reorderedPairSchema :=
    (Alike.object_cons (.refl _) (.object_cons (.refl _) (.object_cons hitems (.refl _)))).trans
      (.of_perm (by decide) (by decide))
  refine ⟨hnames, halike, ?_⟩
  exact ((validate_eq_ok_iff_of_alike hnames halike).2.1 (by decide)).mp (by rfl)

/-- Two allowed values that have the same members in different orders. -/
def twoOrders : Json :=
  .object [("enum", .array [
    .object [("a", .number (.integer 1)), ("b", .number (.integer 2))],
    .object [("b", .number (.integer 2)), ("a", .number (.integer 1))]])]

/-- The same with the members of the second one in the order of the first. -/
def oneOrder : Json :=
  .object [("enum", .array [
    .object [("a", .number (.integer 1)), ("b", .number (.integer 2))],
    .object [("a", .number (.integer 1)), ("b", .number (.integer 2))]])]

/-- A valid schema of draft 04 is not valid in an order that makes its allowed values the same. -/
theorem not_validate_oneOrder :
    twoOrders.HasDistinctNames ∧ Alike twoOrders oneOrder ∧ validate twoOrders = .ok () ∧
      validate oneOrder ≠ .ok () := by
  refine ⟨?_, ?_, by rfl, by decide +kernel⟩
  · simp [twoOrders, Json.HasDistinctNames, Json.ItemsHaveDistinctNames,
      Json.MembersHaveDistinctNames]
  · have hturned : Alike (.object [("b", .number (.integer 2)), ("a", .number (.integer 1))])
        (.object [("a", .number (.integer 1)), ("b", .number (.integer 2))]) :=
      .of_perm (by decide) (by decide)
    exact .object_cons (.array_cons (.refl _) (.array_cons hturned (.refl _))) (.refl _)

end RamlSchema
