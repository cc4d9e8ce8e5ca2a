import RamlSchema.Proofs.Fix.Steps

/-!
# Three walks in one

A schema is fixed by three rules, each over the whole tree. As the later rules see the same names in
an object whether or not the values in it have been fixed, the walks can be put into one: the rules
are applied to the members of an object as they are found, and then to the values in the result.
-/

namespace RamlSchema

open Members

theorem FileType.alternatives_of_not_array {v : Json} (h : v.typeName ≠ "array") :
    FileType.alternatives (some v) = [] := by
  cases v with
  | array items => exact absurd rfl h
  | _ => rfl

theorem FileType.alternatives_cases (declared : Option Json) :
    FileType.alternatives declared = [] ∨ ∃ w, FileType.alternatives declared = [("anyOf", w)] := by
  unfold alternatives
  split
  · exact .inr ⟨_, rfl⟩
  · exact .inl rfl

/-- Members with a name that no rule looks at. -/
def Inert (ms : Members) : Prop :=
  "type" ∉ names ms ∧ "examples" ∉ names ms ∧ VendorName.hasMarked ms = false

/-- A function on values that keeps what kind of value each is, goes into arrays item by item, and
into objects that no rule is for member by member. -/
structure Walks (f : Json → Json) : Prop where
  kind : ∀ v, (f v).typeName = v.typeName
  string : ∀ s, f (.string s) = .string s
  array : ∀ items, f (.array items) = .array (items.map f)
  inert : ∀ ms, Inert ms → f (.object ms) = .object (mapValues (fun _ => f) ms)

theorem hasMarked_mapValues (f : String → Json → Json) (ms : Members) :
    VendorName.hasMarked (mapValues f ms) = VendorName.hasMarked ms := by
  unfold VendorName.hasMarked
  rw [mapValues, List.any_map]
  rfl

theorem Inert.mapValues {ms : Members} (h : Inert ms) (f : String → Json → Json) :
    Inert (mapValues f ms) := by
  unfold Inert
  rw [names_mapValues, hasMarked_mapValues]
  exact h

theorem Rule.walks_fix {r : Rule} (hr : ∀ ms, Inert ms → r.applies ms = false) : Walks r.fix where
  kind v := by
    cases v with
    | array items =>
        rw [fix_array]
        rfl
    | object ms =>
        rw [fix_object]
        rfl
    | _ => rfl
  string _ := rfl
  array := fix_array
  inert ms h := by
    rw [fix_object, step_of_not_applies (hr _ (h.mapValues _))]

namespace Walks

variable {f g : Json → Json}

theorem comp (hg : Walks g) (hf : Walks f) : Walks fun v => g (f v) where
  kind v := by rw [hg.kind, hf.kind]
  string s := by rw [hf.string, hg.string]
  array items := by rw [hf.array, hg.array, List.map_map]; rfl
  inert ms h := by rw [hf.inert ms h, hg.inert _ (h.mapValues _), mapValues_mapValues]

theorem eq_string_iff (hf : Walks f) {v : Json} {s : String} :
    f v = .string s ↔ v = .string s := by
  constructor
  · intro h
    have hkind : v.typeName = "string" := by rw [← hf.kind, h]; rfl
    cases v with
    | string s' => rw [← h, hf.string]
    | _ => exact absurd hkind (by simp [Json.typeName])
  · intro h
    rw [h, hf.string]

theorem isObject (hf : Walks f) (v : Json) : (f v).isObject = v.isObject := by
  have hkind := hf.kind v
  cases hv : f v <;> cases v <;> simp_all [Json.typeName, Json.isObject]

theorem alternatives (hf : Walks f) (declared : Option Json) :
    FileType.alternatives (declared.map f) =
      mapValues (fun _ => f) (FileType.alternatives declared) := by
  cases declared with
  | none => rfl
  | some v =>
      rw [Option.map_some]
      by_cases harray : v.typeName = "array"
      · cases v with
        | array items =>
            rw [hf.array]
            cases items with
            | nil => rfl
            | cons t ts =>
                have hentry : ∀ t, f (.object [("mediaType", t)]) =
                    .object [("mediaType", f t)] :=
                  fun t => hf.inert _ ⟨by simp, by simp, rfl⟩
                simp [FileType.alternatives, mapValues, hf.array, hentry]
        | _ => exact absurd harray (by simp [Json.typeName])
      · have hkind : (f v).typeName ≠ "array" := hf.kind v ▸ harray
        rw [FileType.alternatives_of_not_array harray, FileType.alternatives_of_not_array hkind]
        rfl

theorem media (hf : Walks f) (declared : Option Json) :
    f (FileType.media declared) = FileType.media (declared.map f) := by
  have hinert : Inert (("binaryEncoding", .string "binary") :: FileType.alternatives declared) := by
    rcases FileType.alternatives_cases declared with h | ⟨w, h⟩
    · rw [h]
      exact ⟨by simp, by simp, rfl⟩
    · rw [h]
      exact ⟨by simp, by simp, rfl⟩
  rw [FileType.media, hf.inert _ hinert, mapValues_cons, hf.string, ← hf.alternatives]
  rfl

end Walks

/-! ### Each rule and the values in an object -/

theorem FileType.isFile_mapValues {f : Json → Json} (hf : Walks f) (ms : Members) :
    isFile (mapValues (fun _ => f) ms) = isFile ms := by
  unfold isFile
  rw [find?_mapValues]
  cases find? "type" ms with
  | none => rfl
  | some v => simp [hf.eq_string_iff]

theorem FileType.step_mapValues {f : Json → Json} (hf : Walks f) (ms : Members) :
    FileType.rule.step (mapValues (fun _ => f) ms) =
      mapValues (fun _ => f) (FileType.rule.step ms) := by
  have hdescribe : describe (mapValues (fun _ => f) ms) = mapValues (fun _ => f) (describe ms) := by
    unfold describe
    rw [find?_mapValues, mapValues_put, mapValues_put, mapValues_remove, hf.string, hf.media]
  unfold Rule.step
  show (if isFile _ then describe _ else _) = mapValues _ (if isFile ms then describe ms else ms)
  rw [isFile_mapValues hf, hdescribe]
  split <;> rfl

theorem ExampleList.hasMapping_mapValues {f : Json → Json} (hf : Walks f) (ms : Members) :
    hasMapping (mapValues (fun _ => f) ms) = hasMapping ms := by
  rw [hasMapping_eq_any, hasMapping_eq_any, find?_mapValues, Option.any_map]
  exact congrArg (Option.any · _) (funext hf.isObject)

theorem VendorName.step_mapValues (f : Json → Json) (ms : Members) :
    VendorName.rule.step (mapValues (fun _ => f) ms) =
      mapValues (fun _ => f) (VendorName.rule.step ms) := by
  have hunmark : unmarkAll (mapValues (fun _ => f) ms) =
      mapValues (fun _ => f) (unmarkAll ms) := by
    unfold unmarkAll
    rw [mapValues_ofPairs, mapValues, mapValues, List.map_map, List.map_map]
    rfl
  unfold Rule.step
  show (if hasMarked _ then unmarkAll _ else _) =
    mapValues _ (if hasMarked ms then unmarkAll ms else ms)
  rw [hasMarked_mapValues, hunmark]
  split <;> rfl

/-! ### The whole fix -/

theorem FileType.walks_fix : Walks FileType.rule.fix :=
  Rule.walks_fix fun _ h => not_applies_of_not_mem h.1

theorem VendorName.walks_fix : Walks VendorName.rule.fix :=
  Rule.walks_fix fun _ h => h.2.2

theorem ExampleList.walks_fix : Walks ExampleList.rule.fix := by
  refine Rule.walks_fix fun ms h => ?_
  have hfind := find?_eq_none_iff.mpr h.2.1
  simp [rule, hasMapping, hfind]

theorem walks_fixSchema : Walks fixSchema :=
  ExampleList.walks_fix.comp (VendorName.walks_fix.comp FileType.walks_fix)

theorem fixSchema_array (items : List Json) :
    fixSchema (.array items) = .array (items.map fixSchema) :=
  walks_fixSchema.array items

/-- The names of an object are fixed before its values, except that a mapping of examples becomes a
list when all in it is fixed. -/
theorem fixSchema_object (ms : Members) :
    fixSchema (.object ms) = .object (ExampleList.rule.step (mapValues (fun _ => fixSchema)
      (VendorName.rule.step (FileType.rule.step ms)))) := by
  have hwalk : ∀ v, fixSchema v =
      ExampleList.rule.fix (VendorName.rule.fix (FileType.rule.fix v)) := fun _ => rfl
  rw [hwalk, Rule.fix_object, Rule.fix_object, Rule.fix_object,
    FileType.step_mapValues FileType.walks_fix, mapValues_mapValues, VendorName.step_mapValues,
    mapValues_mapValues]
  rfl

theorem fixSchema_object_of_nodup {ms : Members} (hnodup : (names ms).Nodup) :
    fixSchema (.object ms) =
      .object (mapValues (fun k v => ExampleList.listed k (fixSchema v))
        (VendorName.unmarkAll (FileType.rule.step ms))) := by
  have hvendor := VendorName.step_eq_unmarkAll (FileType.nodup_names_step hnodup)
  have hnodup' : (names (mapValues (fun _ => fixSchema)
      (VendorName.unmarkAll (FileType.rule.step ms)))).Nodup := by
    rw [names_mapValues]
    exact nodup_names_ofPairs _
  rw [fixSchema_object, hvendor, ExampleList.step_eq_mapValues hnodup', mapValues_mapValues]

/-! ### One walk -/

/-- The three rules one after the other at an object whose values have been fixed. -/
def fixNode (ms : Members) : Members :=
  ExampleList.rule.step (VendorName.rule.step (FileType.rule.step ms))

mutual

/-- All three rules in one walk from the leaves up. -/
def fixAtOnce : Json → Json
  | .object ms => .object (fixNode (fixMembersAtOnce ms))
  | .array items => .array (fixItemsAtOnce items)
  | .null => .null
  | .boolean b => .boolean b
  | .number n => .number n
  | .string s => .string s
termination_by structural v => v

def fixItemsAtOnce : List Json → List Json
  | [] => []
  | v :: rest => fixAtOnce v :: fixItemsAtOnce rest
termination_by structural vs => vs

def fixMembersAtOnce : List (String × Json) → List (String × Json)
  | [] => []
  | (k, v) :: rest => (k, fixAtOnce v) :: fixMembersAtOnce rest
termination_by structural ms => ms

end

theorem fixItemsAtOnce_eq_map (items : List Json) :
    fixItemsAtOnce items = items.map fixAtOnce := by
  induction items with
  | nil => rfl
  | cons v rest ih => rw [fixItemsAtOnce, ih, List.map_cons]

theorem fixMembersAtOnce_eq_mapValues (ms : Members) :
    fixMembersAtOnce ms = mapValues (fun _ => fixAtOnce) ms := by
  induction ms with
  | nil => rfl
  | cons m rest ih => rw [fixMembersAtOnce, ih, mapValues_cons]

theorem fixSchema_object_eq_fixNode (ms : Members) :
    fixSchema (.object ms) = .object (fixNode (mapValues (fun _ => fixSchema) ms)) := by
  rw [fixSchema_object, fixNode, FileType.step_mapValues walks_fixSchema,
    VendorName.step_mapValues]

/-- **The three walks are one.** A schema is fixed by one walk that applies the three rules to each
object in turn, and an array item by item. -/
theorem fixSchema_eq_fixAtOnce :
    (∀ v, fixSchema v = fixAtOnce v) ∧
      ∀ items, fixSchema (.array items) = .array (items.map fixSchema) := by
  refine ⟨fun v => ?_, fixSchema_array⟩
  induction v using Json.induction with
  | array items ih => rw [fixSchema_array, fixAtOnce, fixItemsAtOnce_eq_map, List.map_congr_left ih]
  | object ms ih =>
      have hvalues : mapValues (fun _ => fixSchema) ms = mapValues (fun _ => fixAtOnce) ms :=
        mapValues_congr ih
      rw [fixSchema_object_eq_fixNode, fixAtOnce, fixMembersAtOnce_eq_mapValues, hvalues]
  | _ => rfl

end RamlSchema
