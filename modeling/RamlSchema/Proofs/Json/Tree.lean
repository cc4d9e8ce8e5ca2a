import RamlSchema.Proofs.Json.Members

/-!
# Values as trees

A value is a scalar, an array or an object, and what is claimed of every value is shown by induction
on that: for an array one has the claim for its items, for an object for the values of its members.
The walks over items and over members that a definition on values comes with are stated here once as
statements about all of them, so that no proof has to follow the walk again.
-/

namespace RamlSchema.Json

/-- Induction over the items of arrays and the values in objects. -/
@[elab_as_elim]
theorem induction {motive : Json → Prop} (null : motive .null)
    (boolean : ∀ b, motive (.boolean b)) (number : ∀ n, motive (.number n))
    (string : ∀ s, motive (.string s))
    (array : ∀ items, (∀ v ∈ items, motive v) → motive (.array items))
    (object : ∀ ms : Members, (∀ m ∈ ms, motive m.2) → motive (.object ms)) (v : Json) :
    motive v := by
  refine @Json.rec motive (fun items => ∀ v ∈ items, motive v) (fun ms => ∀ m ∈ ms, motive m.2)
    (fun m => motive m.2) null boolean number string array object ?_ ?_ ?_ ?_ ?_ v
  · intro v hv
    exact absurd hv List.not_mem_nil
  · intro v vs hv hvs w hw
    rcases List.mem_cons.mp hw with rfl | hw
    · exact hv
    · exact hvs w hw
  · intro m hm
    exact absurd hm List.not_mem_nil
  · intro m ms hm hms n hn
    rcases List.mem_cons.mp hn with rfl | hn
    · exact hm
    · exact hms n hn
  · intro _ v hv
    exact hv

/-! ### Distinct names -/

theorem itemsHaveDistinctNames_iff {items : List Json} :
    ItemsHaveDistinctNames items ↔ ∀ v ∈ items, v.HasDistinctNames := by
  induction items with
  | nil => simp [ItemsHaveDistinctNames]
  | cons v rest ih => simp [ItemsHaveDistinctNames, ih]

theorem membersHaveDistinctNames_iff {ms : Members} :
    MembersHaveDistinctNames ms ↔ ∀ m ∈ ms, m.2.HasDistinctNames := by
  induction ms with
  | nil => simp [MembersHaveDistinctNames]
  | cons m rest ih => simp [MembersHaveDistinctNames, ih]

theorem hasDistinctNames_array {items : List Json} :
    (array items).HasDistinctNames ↔ ∀ v ∈ items, v.HasDistinctNames :=
  itemsHaveDistinctNames_iff

theorem hasDistinctNames_object {ms : Members} :
    (object ms).HasDistinctNames ↔ ms.names.Nodup ∧ ∀ m ∈ ms, m.2.HasDistinctNames :=
  and_congr_right fun _ => membersHaveDistinctNames_iff

theorem hasDistinctNames_put {name : String} {v : Json} {ms : Members}
    (hms : (object ms).HasDistinctNames) (hv : v.HasDistinctNames) :
    (object (ms.put name v)).HasDistinctNames := by
  obtain ⟨hnodup, hvalues⟩ := hasDistinctNames_object.mp hms
  refine hasDistinctNames_object.mpr ⟨Members.nodup_names_put hnodup _ _, fun m hm => ?_⟩
  rcases Members.mem_put hm with rfl | hm
  · exact hv
  · exact hvalues m hm

theorem hasDistinctNames_remove {name : String} {ms : Members}
    (hms : (object ms).HasDistinctNames) : (object (ms.remove name)).HasDistinctNames := by
  obtain ⟨hnodup, hvalues⟩ := hasDistinctNames_object.mp hms
  refine hasDistinctNames_object.mpr ⟨Members.nodup_names_remove hnodup _, fun m hm => ?_⟩
  exact hvalues m (Members.mem_of_mem_remove hm)

theorem hasDistinctNames_ofPairs {pairs : List (String × Json)}
    (h : ∀ m ∈ pairs, m.2.HasDistinctNames) :
    (object (Members.ofPairs pairs)).HasDistinctNames := by
  refine hasDistinctNames_object.mpr ⟨Members.nodup_names_ofPairs pairs, fun m hm => ?_⟩
  exact h m (Members.mem_of_mem_ofPairs hm)

/-! ### Depth -/

theorem depthItems_le_iff {items : List Json} {n : Nat} :
    depthItems items ≤ n ↔ ∀ v ∈ items, v.depth ≤ n := by
  induction items with
  | nil => simp [depthItems]
  | cons v rest ih => rw [depthItems, Nat.max_le, ih, List.forall_mem_cons]

theorem depthMembers_le_iff {ms : Members} {n : Nat} :
    depthMembers ms ≤ n ↔ ∀ m ∈ ms, m.2.depth ≤ n := by
  induction ms with
  | nil => simp [depthMembers]
  | cons m rest ih => rw [depthMembers, Nat.max_le, ih, List.forall_mem_cons]

theorem depth_array_le_iff {items : List Json} {n : Nat} :
    (array items).depth ≤ n + 1 ↔ ∀ v ∈ items, v.depth ≤ n := by
  rw [depth, Nat.add_le_add_iff_right, depthItems_le_iff]

theorem depth_object_le_iff {ms : Members} {n : Nat} :
    (object ms).depth ≤ n + 1 ↔ ∀ m ∈ ms, m.2.depth ≤ n := by
  rw [depth, Nat.add_le_add_iff_right, depthMembers_le_iff]

theorem depth_lt_of_mem_array {items : List Json} {v : Json} (h : v ∈ items) :
    v.depth < (array items).depth := by
  rw [depth, Nat.lt_succ_iff]
  exact depthItems_le_iff.mp (Nat.le_refl _) v h

theorem depth_lt_of_mem_object {ms : Members} {m : String × Json} (h : m ∈ ms) :
    m.2.depth < (object ms).depth := by
  rw [depth, Nat.lt_succ_iff]
  exact depthMembers_le_iff.mp (Nat.le_refl _) m h

/-! ### Objects in a tree -/

mutual

/-- Whether some object of the tree has a property. -/
def anyObject (p : Members → Bool) : Json → Bool
  | object ms => p ms || anyObjectMembers p ms
  | array items => anyObjectItems p items
  | null => false
  | boolean _ => false
  | number _ => false
  | string _ => false
termination_by structural v => v

/-- `anyObject` for some item. -/
def anyObjectItems (p : Members → Bool) : List Json → Bool
  | [] => false
  | v :: rest => anyObject p v || anyObjectItems p rest
termination_by structural vs => vs

/-- `anyObject` for some member's value. -/
def anyObjectMembers (p : Members → Bool) : List (String × Json) → Bool
  | [] => false
  | (_, v) :: rest => anyObject p v || anyObjectMembers p rest
termination_by structural ms => ms

end

theorem anyObject_array (p : Members → Bool) (items : List Json) :
    anyObject p (array items) = items.any (anyObject p) := by
  rw [anyObject]
  induction items with
  | nil => rfl
  | cons v rest ih => rw [anyObjectItems, ih, List.any_cons]

theorem anyObject_object (p : Members → Bool) (ms : Members) :
    anyObject p (object ms) = (p ms || ms.any fun m => anyObject p m.2) := by
  have hmembers : anyObjectMembers p ms = ms.any fun m => anyObject p m.2 := by
    induction ms with
    | nil => rfl
    | cons m rest ih => rw [anyObjectMembers, ih, List.any_cons]
  rw [anyObject, hmembers]

theorem anyObject_array_eq_false {p : Members → Bool} {items : List Json} :
    anyObject p (array items) = false ↔ ∀ v ∈ items, anyObject p v = false := by
  rw [anyObject_array, List.any_eq_false]
  simp only [Bool.not_eq_true]

theorem anyObject_object_eq_false {p : Members → Bool} {ms : Members} :
    anyObject p (object ms) = false ↔ p ms = false ∧ ∀ m ∈ ms, anyObject p m.2 = false := by
  rw [anyObject_object, Bool.or_eq_false_iff, List.any_eq_false]
  simp only [Bool.not_eq_true]

/-! ### Names in a tree -/

mutual

/-- The names in all objects of the tree. -/
def allNames : Json → List String
  | object ms => ms.map (·.1) ++ allNamesMembers ms
  | array items => allNamesItems items
  | null => []
  | boolean _ => []
  | number _ => []
  | string _ => []
termination_by structural v => v

def allNamesItems : List Json → List String
  | [] => []
  | v :: rest => allNames v ++ allNamesItems rest
termination_by structural vs => vs

def allNamesMembers : List (String × Json) → List String
  | [] => []
  | (_, v) :: rest => allNames v ++ allNamesMembers rest
termination_by structural ms => ms

end

theorem mem_allNames_array {k : String} {items : List Json} :
    k ∈ (array items).allNames ↔ ∃ v ∈ items, k ∈ v.allNames := by
  rw [allNames]
  induction items with
  | nil => simp [allNamesItems]
  | cons v rest ih => simp [allNamesItems, ih]

theorem mem_allNames_object {k : String} {ms : Members} :
    k ∈ (object ms).allNames ↔ k ∈ ms.names ∨ ∃ m ∈ ms, k ∈ m.2.allNames := by
  have hmembers : k ∈ allNamesMembers ms ↔ ∃ m ∈ ms, k ∈ m.2.allNames := by
    induction ms with
    | nil => simp [allNamesMembers]
    | cons m rest ih => simp [allNamesMembers, ih]
  rw [allNames, List.mem_append, hmembers, Members.names]

/-- To look for an object with a name of some kind is to look for such a name. -/
theorem anyObject_iff_exists_name {p : Members → Bool} {q : String → Prop}
    (hp : ∀ ms, p ms = true ↔ ∃ k ∈ ms.names, q k) {v : Json} :
    anyObject p v = true ↔ ∃ k ∈ v.allNames, q k := by
  induction v using Json.induction with
  | array items ih =>
      rw [anyObject_array, List.any_eq_true]
      constructor
      · rintro ⟨v, hv, h⟩
        obtain ⟨k, hk, hq⟩ := (ih v hv).mp h
        exact ⟨k, mem_allNames_array.mpr ⟨v, hv, hk⟩, hq⟩
      · rintro ⟨k, hk, hq⟩
        obtain ⟨v, hv, hk⟩ := mem_allNames_array.mp hk
        exact ⟨v, hv, (ih v hv).mpr ⟨k, hk, hq⟩⟩
  | object ms ih =>
      rw [anyObject_object, Bool.or_eq_true, List.any_eq_true, hp]
      constructor
      · rintro (⟨k, hk, hq⟩ | ⟨m, hm, h⟩)
        · exact ⟨k, mem_allNames_object.mpr (.inl hk), hq⟩
        · obtain ⟨k, hk, hq⟩ := (ih m hm).mp h
          exact ⟨k, mem_allNames_object.mpr (.inr ⟨m, hm, hk⟩), hq⟩
      · rintro ⟨k, hk, hq⟩
        rcases mem_allNames_object.mp hk with hk | ⟨m, hm, hk⟩
        · exact .inl ⟨k, hk, hq⟩
        · exact .inr ⟨m, hm, (ih m hm).mpr ⟨k, hk, hq⟩⟩
  | _ => simp [allNames, anyObject]

/-! ### Numbers in a tree -/

mutual

/-- The numbers of the tree. -/
def allNumbers : Json → List Number
  | number n => [n]
  | array items => allNumbersItems items
  | object ms => allNumbersMembers ms
  | null => []
  | boolean _ => []
  | string _ => []
termination_by structural v => v

def allNumbersItems : List Json → List Number
  | [] => []
  | v :: rest => allNumbers v ++ allNumbersItems rest
termination_by structural vs => vs

def allNumbersMembers : List (String × Json) → List Number
  | [] => []
  | (_, v) :: rest => allNumbers v ++ allNumbersMembers rest
termination_by structural ms => ms

end

theorem mem_allNumbers_array {n : Number} {items : List Json} :
    n ∈ (array items).allNumbers ↔ ∃ v ∈ items, n ∈ v.allNumbers := by
  rw [allNumbers]
  induction items with
  | nil => simp [allNumbersItems]
  | cons v rest ih => simp [allNumbersItems, ih]

theorem mem_allNumbers_object {n : Number} {ms : Members} :
    n ∈ (object ms).allNumbers ↔ ∃ m ∈ ms, n ∈ m.2.allNumbers := by
  rw [allNumbers]
  induction ms with
  | nil => simp [allNumbersMembers]
  | cons m rest ih => simp [allNumbersMembers, ih]

/-! ### What is inside a tree -/

/-- An array has the property `q` by one of its items, and an object by itself if its members have
`p`, or by one of its values. No string has it. -/
structure Spreads (p : Members → Prop) (q : Json → Prop) : Prop where
  string : ∀ s, ¬ q (string s)
  array : ∀ items, q (array items) ↔ ∃ v ∈ items, q v
  object : ∀ ms, q (object ms) ↔ p ms ∨ ∃ m ∈ ms, q m.2

theorem spreads_anyObject (p : Members → Bool) :
    Spreads (p · = true) (anyObject p · = true) where
  string _ := Bool.false_ne_true
  array items := by rw [anyObject_array, List.any_eq_true]
  object ms := by rw [anyObject_object, Bool.or_eq_true, List.any_eq_true]

theorem spreads_allNames (k : String) : Spreads (k ∈ ·.names) (k ∈ ·.allNames) where
  string _ := List.not_mem_nil
  array _ := mem_allNames_array
  object _ := mem_allNames_object

theorem spreads_allNumbers (n : Number) : Spreads (fun _ => False) (n ∈ ·.allNumbers) where
  string _ := List.not_mem_nil
  array _ := mem_allNumbers_array
  object _ := by rw [mem_allNumbers_object, false_or]

end RamlSchema.Json
