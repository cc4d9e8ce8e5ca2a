import RamlSchema.Proofs.Fix.Names

/-!
# Which marks are left

A fixed schema has no mapping of examples. It can have marked names: a mark is taken off a name
once, and a name that carries it twice carries it still. Whether such a name is in the result
depends on what happens around it. A member can lose its value to a later one of the same name, the
list of media types of a file is used up or dropped, and the names in a mapping of examples are
dropped with the mapping.
-/

namespace RamlSchema

open Members Json

namespace ExampleList

theorem hasMapping_step {ms : Members} (h : ∀ m ∈ ms, anyObject hasMapping m.2 = false) :
    hasMapping (rule.step ms) = false ∧
      ∀ m ∈ rule.step ms, anyObject hasMapping m.2 = false := by
  constructor
  · rcases step_cases ms with ⟨hmapping, hstep⟩ | ⟨es, _, hstep⟩
    · rw [hstep, hmapping]
    · rw [hstep, hasMapping, find?_put_self]
  · intro m hm
    rcases mem_step hm with hm | ⟨es, hes, rfl⟩
    · exact h m hm
    · rw [anyObject_array_eq_false, List.forall_mem_map]
      exact (anyObject_object_eq_false.mp (h _ hes)).2

theorem anyObject_hasMapping_fix (v : Json) : anyObject hasMapping (rule.fix v) = false :=
  Rule.anyObject_fix_eq_false (fun _ => hasMapping_step) v

end ExampleList

/-! ### Marks -/

namespace VendorName

mutual

/-- A marked name is left in what a value becomes: some name of an object has its mark twice, or a
mark is left further inside. -/
inductive LeavesMark : Json → Prop
  | item {items : List Json} {v : Json} (hv : v ∈ items) (h : LeavesMark v) :
      LeavesMark (.array items)
  | name {ms : Members} {k : String} (hk : k ∈ names ms) (h : isTwiceMarked k = true) :
      LeavesMark (.object ms)
  | inside {ms : Members} (h : LeavesMarkInside ms) : LeavesMark (.object ms)

/-- A marked name is left in what a value in an object becomes. The object is looked at as a binary
string if it is a file, and of a mapping of examples the names do not count. -/
inductive LeavesMarkInside : Members → Prop
  | value {ms : Members} {k : String} {v : Json} (hlasts : Lasts (FileType.rule.step ms) k v)
      (hk : unmark k ≠ "examples" ∨ v.isObject = false) (h : LeavesMark v) : LeavesMarkInside ms
  | examples {ms es : Members} {k : String}
      (hlasts : Lasts (FileType.rule.step ms) k (.object es)) (hk : unmark k = "examples")
      (h : LeavesMarkInside es) : LeavesMarkInside ms

end

theorem leavesMark_array {items : List Json} :
    LeavesMark (.array items) ↔ ∃ v ∈ items, LeavesMark v := by
  constructor
  · intro h
    cases h with
    | item hv h => exact ⟨_, hv, h⟩
  · intro h
    obtain ⟨v, hv, h⟩ := h
    exact .item hv h

theorem leavesMark_object {ms : Members} :
    LeavesMark (.object ms) ↔
      (∃ k ∈ names ms, isTwiceMarked k = true) ∨ LeavesMarkInside ms := by
  constructor
  · intro h
    cases h with
    | name hk h => exact .inl ⟨_, hk, h⟩
    | inside h => exact .inr h
  · intro h
    rcases h with ⟨k, hk, h⟩ | h
    · exact .name hk h
    · exact .inside h

/-- What is left of the marks in a value, and of those that are not in its own names, is as described.
-/
structure Traced (v : Json) : Prop where
  whole : anyObject hasMarked (fixSchema v) = true ↔ LeavesMark v
  inside : ∀ ms, v = .object ms →
    (anyObject hasMarked (ExampleList.asList (fixSchema v)) = true ↔ LeavesMarkInside ms)

theorem traced_array {items : List Json} (h : ∀ v ∈ items, Traced v) : Traced (.array items) where
  whole := by
    rw [fixSchema_array, anyObject_array, List.any_map, List.any_eq_true, leavesMark_array]
    exact exists_congr fun v => and_congr_right fun hv => (h v hv).whole
  inside _ h := by cases h

theorem hasMarked_unmarkAll_step {ms : Members} :
    hasMarked (unmarkAll (FileType.rule.step ms)) = true ↔
      ∃ k ∈ names ms, isTwiceMarked k = true := by
  have hother : ∀ k, isTwiceMarked k = true →
      (k ∈ names (FileType.rule.step ms) ↔ k ∈ names ms) := by
    intro k hk
    refine FileType.mem_names_step fun hmem => ?_
    have hnone : ∀ k ∈ ["type", "media", FileType.mediaTypesName], isTwiceMarked k = false := by
      decide
    rw [hnone k hmem] at hk
    exact Bool.false_ne_true hk
  rw [hasMarked_iff]
  constructor
  · intro h
    obtain ⟨name, hname, hmarked⟩ := h
    obtain ⟨k, hk, rfl⟩ := mem_names_unmarkAll.mp hname
    exact ⟨k, (hother k hmarked).mp hk, hmarked⟩
  · intro h
    obtain ⟨k, hk, htwice⟩ := h
    exact ⟨unmark k, mem_names_unmarkAll.mpr ⟨k, (hother k htwice).mpr hk, rfl⟩, htwice⟩

theorem leavesMarkInside_iff {ms : Members}
    (h : ∀ m ∈ FileType.rule.step ms, Traced m.2) :
    (∃ m ∈ unmarkAll (FileType.rule.step ms),
      anyObject hasMarked (ExampleList.listed m.1 (fixSchema m.2)) = true) ↔
        LeavesMarkInside ms := by
  have hmem : ∀ name v, (name, v) ∈ unmarkAll (FileType.rule.step ms) ↔
      ∃ k, Lasts (FileType.rule.step ms) k v ∧ unmark k = name := by
    intro name v
    rw [← find?_unmarkAll]
    exact (find?_eq_some_iff (nodup_names_ofPairs _)).symm
  constructor
  · intro hany
    obtain ⟨⟨name, v⟩, hm, hv⟩ := hany
    obtain ⟨k, hlasts, rfl⟩ := (hmem name v).mp hm
    have htraced := h _ hlasts.mem
    by_cases hk : unmark k = "examples"
    · cases v with
      | object es =>
          rw [ExampleList.listed, if_pos hk] at hv
          exact .examples hlasts hk ((htraced.inside es rfl).mp hv)
      | _ =>
          rw [ExampleList.listed_eq_self (.inr (walks_fixSchema.isObject _))] at hv
          exact .value hlasts (.inr rfl) (htraced.whole.mp hv)
    · rw [ExampleList.listed_eq_self (.inl hk)] at hv
      exact .value hlasts (.inl hk) (htraced.whole.mp hv)
  · intro hleaves
    cases hleaves with
    | @value _ k v hlasts hk hv =>
        refine ⟨(unmark k, v), (hmem _ _).mpr ⟨k, hlasts, rfl⟩, ?_⟩
        rw [ExampleList.listed_eq_self (hk.imp id (walks_fixSchema.isObject v).trans)]
        exact (h _ hlasts.mem).whole.mpr hv
    | @examples _ es k hlasts hk hv =>
        refine ⟨(unmark k, .object es), (hmem _ _).mpr ⟨k, hlasts, rfl⟩, ?_⟩
        rw [ExampleList.listed, if_pos hk]
        exact ((h _ hlasts.mem).inside es rfl).mpr hv

theorem traced_object {ms : Members} (hnodup : (names ms).Nodup)
    (h : ∀ m ∈ FileType.rule.step ms, Traced m.2) : Traced (.object ms) where
  whole := by
    rw [fixSchema_object_of_nodup hnodup, anyObject_object, hasMarked_mapValues, mapValues,
      List.any_map, Bool.or_eq_true, hasMarked_unmarkAll_step, List.any_eq_true,
      leavesMark_object]
    exact or_congr Iff.rfl (leavesMarkInside_iff h)
  inside ms' heq := by
    obtain rfl := Json.object.inj heq
    rw [fixSchema_object_of_nodup hnodup, ExampleList.asList, anyObject_array, mapValues,
      List.any_map, List.any_map, List.any_eq_true]
    exact leavesMarkInside_iff h

theorem traced_scalar {v : Json} (harray : v.typeName ≠ "array") (hobject : v.typeName ≠ "object") :
    Traced v := by
  cases v with
  | array items => exact absurd rfl harray
  | object ms => exact absurd rfl hobject
  | _ =>
      refine ⟨⟨fun h => absurd h Bool.false_ne_true, fun h => ?_⟩, fun ms h => ?_⟩
      · cases h
      · cases h

theorem traced_string (s : String) : Traced (.string s) :=
  traced_scalar (by simp [typeName]) (by simp [typeName])

theorem traced_media {declared : Option Json}
    (h : ∀ items, declared = some (.array items) → ∀ t ∈ items, Traced t) :
    Traced (FileType.media declared) := by
  have hentry : ∀ t, Traced t → Traced (.object [("mediaType", t)]) := by
    intro t ht
    refine traced_object (by simp) fun m hm => ?_
    rw [Rule.step_of_not_applies (FileType.not_applies_of_not_mem (by simp)),
      List.mem_singleton] at hm
    exact hm ▸ ht
  have halternatives : ∀ m ∈ FileType.alternatives declared, Traced m.2 := by
    intro m hm
    unfold FileType.alternatives at hm
    split at hm
    · next t ts =>
        rw [List.mem_singleton] at hm
        subst hm
        refine traced_array ?_
        rw [List.forall_mem_map]
        exact fun t' ht' => hentry t' (h _ rfl t' ht')
    · exact absurd hm List.not_mem_nil
  have hnames : (names (("binaryEncoding", .string "binary") ::
      FileType.alternatives declared)).Nodup ∧
        "type" ∉ names (("binaryEncoding", .string "binary") ::
          FileType.alternatives declared) := by
    rcases FileType.alternatives_cases declared with hnone | ⟨w, hone⟩
    · simp [hnone]
    · simp [hone]
  refine traced_object hnames.1 fun m hm => ?_
  rw [Rule.step_of_not_applies (FileType.not_applies_of_not_mem hnames.2)] at hm
  rcases List.mem_cons.mp hm with rfl | hm
  · exact traced_string _
  · exact halternatives m hm

theorem traced {v : Json} (hnames : v.HasDistinctNames) : Traced v := by
  induction hdepth : v.depth using Nat.strongRecOn generalizing v with
  | ind depth ih =>
      have hsmaller : ∀ w : Json, w.HasDistinctNames → w.depth < v.depth → Traced w :=
        fun w hw hlt => ih w.depth (hdepth ▸ hlt) hw rfl
      cases v with
      | array items =>
          refine traced_array fun w hw => hsmaller w ?_ (Json.depth_lt_of_mem_array hw)
          exact Json.hasDistinctNames_array.mp hnames w hw
      | object ms =>
          obtain ⟨hnodup, hvalues⟩ := Json.hasDistinctNames_object.mp hnames
          refine traced_object hnodup fun m hm => ?_
          rcases FileType.mem_step hm with hm | rfl | rfl
          · exact hsmaller m.2 (hvalues m hm) (Json.depth_lt_of_mem_object hm)
          · exact traced_string _
          · refine traced_media fun items hitems t ht => ?_
            have hmem := mem_of_find? hitems
            have harray : (Json.array items).depth < _ := Json.depth_lt_of_mem_object hmem
            have hitem := Json.depth_lt_of_mem_array ht
            refine hsmaller t ?_ (by omega)
            exact Json.hasDistinctNames_array.mp (hvalues _ hmem) t ht
      | _ => exact traced_scalar (by simp [typeName]) (by simp [typeName])

/-- Some name has its mark twice. -/
def hasTwiceMarked (ms : Members) : Bool :=
  ms.any fun m => isTwiceMarked m.1

theorem hasTwiceMarked_iff {ms : Members} :
    hasTwiceMarked ms = true ↔ ∃ k ∈ names ms, isTwiceMarked k = true := by
  simp [hasTwiceMarked, names]

end VendorName

/-- **Which marks are left.** A fixed schema has no mapping of examples, and a marked name is left in
it exactly where a name with two marks lasts. -/
theorem anyObject_fixSchema {v : Json} (hnames : v.HasDistinctNames) :
    anyObject ExampleList.hasMapping (fixSchema v) = false ∧
      (anyObject VendorName.hasMarked (fixSchema v) = true ↔ VendorName.LeavesMark v) :=
  ⟨ExampleList.anyObject_hasMapping_fix _, (VendorName.traced hnames).whole⟩

/-- A file with a media type that has a name with two marks: the mark is left in the description. -/
def markedFile : Json :=
  .object [
    ("type", .string "file"),
    ("x-amf-fileTypes", .array [.object [("x-amf-x-amf-a", .null)]]),
    ("x-amf-examples", .object [("x-amf-x-amf-b", .boolean true)])]

theorem leavesMark_markedFile : VendorName.LeavesMark markedFile := by
  have hnames : markedFile.HasDistinctNames := by
    simp [markedFile, HasDistinctNames, ItemsHaveDistinctNames, MembersHaveDistinctNames]
  have hfixed : anyObject VendorName.hasMarked (fixSchema markedFile) = true := by rfl
  exact (anyObject_fixSchema hnames).2.mp hfixed

/-- A fixed schema can have a marked name. -/
theorem exists_anyObject_hasMarked_fixSchema :
    ¬∀ v : Json, v.HasDistinctNames →
      anyObject VendorName.hasMarked (fixSchema v) = false ∧
        anyObject ExampleList.hasMapping (fixSchema v) = false := by
  intro h
  have hmarked := (h (.object [("x-amf-x-amf-a", .number (.integer 1))])
    (by simp [HasDistinctNames, MembersHaveDistinctNames])).1
  exact absurd hmarked (by decide)

/-- Where names have at most one mark, a fixed schema has none. -/
theorem anyObject_hasMarked_fixSchema_eq_false {v : Json}
    (h : anyObject VendorName.hasTwiceMarked v = false) :
    anyObject VendorName.hasMarked (fixSchema v) = false := by
  rw [← Bool.not_eq_true, VendorName.anyObject_hasMarked_iff]
  rintro ⟨k, hk, hmarked⟩
  rcases mem_allNames_fixSchema hk with hown | ⟨name, hname, rfl⟩
  · exact VendorName.not_isMarked_of_mem_ownNames hown hmarked
  · have htwice := (anyObject_iff_exists_name fun _ => VendorName.hasTwiceMarked_iff).mpr
      ⟨name, hname, hmarked⟩
    rw [h] at htwice
    exact Bool.false_ne_true htwice

end RamlSchema
