import RamlSchema.Fix.Rule
import RamlSchema.Proofs.Json.Tree

/-!
# A rule as a plain recursion

`Rule.fix?` answers with nothing where it changes nothing, so that an untouched tree is known to be
untouched. What comes out is the same as if every object were rebuilt: the values in it are fixed,
and the rule is applied to the result where it applies. Nothing is the answer exactly for a tree in
which no object calls for the rule.
-/

namespace RamlSchema.Rule

variable {r : Rule}

/-- What becomes of the members of an object once their values are fixed. -/
def step (r : Rule) (ms : Members) : Members :=
  if r.applies ms then r.apply ms else ms

theorem step_of_applies {ms : Members} (h : r.applies ms = true) : r.step ms = r.apply ms :=
  if_pos h

theorem step_of_not_applies {ms : Members} (h : r.applies ms = false) : r.step ms = ms := by
  rw [step, if_neg]
  simp [h]

theorem getD_atNode? (ms : Members) : (r.atNode? ms).getD ms = r.step ms := by
  unfold atNode? step
  split <;> rfl

theorem getD_both? {α β γ : Type} (combine : α → β → γ) (a : α) (b : β) (a' : Option α)
    (b' : Option β) :
    (both? combine a b a' b').getD (combine a b) = combine (a'.getD a) (b'.getD b) := by
  cases a' <;> cases b' <;> rfl

theorem getD_fixItems? (items : List Json) : (r.fixItems? items).getD items = items.map r.fix := by
  induction items with
  | nil => rfl
  | cons v rest ih =>
      rw [fixItems?, List.map_cons, ← ih]
      exact getD_both? _ v rest _ _

theorem getD_fixMembers? (ms : Members) :
    (r.fixMembers? ms).getD ms = Members.mapValues (fun _ => r.fix) ms := by
  induction ms with
  | nil => rfl
  | cons m rest ih =>
      obtain ⟨k, v⟩ := m
      have hrest : (k, r.fix v) :: (r.fixMembers? rest).getD rest =
          Members.mapValues (fun _ => r.fix) ((k, v) :: rest) := by
        rw [ih, Members.mapValues_cons]
      rw [fixMembers?, ← hrest]
      exact getD_both? (fun v rest => (k, v) :: rest) v rest _ _

theorem fix_array (items : List Json) : r.fix (.array items) = .array (items.map r.fix) := by
  rw [fix, fix?, ← getD_fixItems?]
  cases r.fixItems? items <;> rfl

theorem fix_object (ms : Members) :
    r.fix (.object ms) = .object (r.step (Members.mapValues (fun _ => r.fix) ms)) := by
  have hmembers := @getD_fixMembers? r ms
  rw [fix, fix?, ← hmembers, ← getD_atNode?]
  cases r.fixMembers? ms with
  | none =>
      rw [Option.getD_none]
      cases r.atNode? ms <;> rfl
  | some ms' => rfl

/-! ### Every object rebuilt -/

mutual

/-- Every array and every object is rebuilt from the leaves up, and the rule is applied to each object
for which it is. -/
def rebuild (r : Rule) : Json → Json
  | .object ms => .object (r.step (rebuildMembers r ms))
  | .array items => .array (rebuildItems r items)
  | .null => .null
  | .boolean b => .boolean b
  | .number n => .number n
  | .string s => .string s
termination_by structural v => v

def rebuildItems (r : Rule) : List Json → List Json
  | [] => []
  | v :: rest => rebuild r v :: rebuildItems r rest
termination_by structural vs => vs

def rebuildMembers (r : Rule) : List (String × Json) → List (String × Json)
  | [] => []
  | (k, v) :: rest => (k, rebuild r v) :: rebuildMembers r rest
termination_by structural ms => ms

end

theorem rebuildItems_eq_map (items : List Json) : r.rebuildItems items = items.map r.rebuild := by
  induction items with
  | nil => rfl
  | cons v rest ih => rw [rebuildItems, ih, List.map_cons]

theorem rebuildMembers_eq_mapValues (ms : Members) :
    r.rebuildMembers ms = Members.mapValues (fun _ => r.rebuild) ms := by
  induction ms with
  | nil => rfl
  | cons m rest ih => rw [rebuildMembers, ih, Members.mapValues_cons]

theorem fix_eq_rebuild (v : Json) : r.fix v = r.rebuild v := by
  induction v using Json.induction with
  | array items ih => rw [fix_array, rebuild, rebuildItems_eq_map, List.map_congr_left ih]
  | object ms ih =>
      have hvalues : Members.mapValues (fun _ => r.fix) ms =
          Members.mapValues (fun _ => r.rebuild) ms := Members.mapValues_congr ih
      rw [fix_object, rebuild, rebuildMembers_eq_mapValues, hvalues]
  | _ => rfl

/-! ### Untouched trees -/

theorem atNode?_eq_none_iff {ms : Members} : r.atNode? ms = none ↔ r.applies ms = false := by
  simp [atNode?]

theorem both?_eq_none_iff {α β γ : Type} {combine : α → β → γ} {a : α} {b : β} {a' : Option α}
    {b' : Option β} : both? combine a b a' b' = none ↔ a' = none ∧ b' = none := by
  cases a' <;> cases b' <;> simp [both?]

theorem fixItems?_eq_none_iff {items : List Json} :
    r.fixItems? items = none ↔ ∀ v ∈ items, r.fix? v = none := by
  induction items with
  | nil => simp [fixItems?]
  | cons v rest ih => rw [fixItems?, both?_eq_none_iff, ih, List.forall_mem_cons]

theorem fixMembers?_eq_none_iff {ms : Members} :
    r.fixMembers? ms = none ↔ ∀ m ∈ ms, r.fix? m.2 = none := by
  induction ms with
  | nil => simp [fixMembers?]
  | cons m rest ih => rw [fixMembers?, both?_eq_none_iff, ih, List.forall_mem_cons]

/-- The rule looks at an object with its values fixed. These are the values that it had if none of
them was changed, and else the object is changed in any case. -/
theorem fix?_object_eq_none_iff {ms : Members} :
    r.fix? (.object ms) = none ↔ r.applies ms = false ∧ ∀ m ∈ ms, r.fix? m.2 = none := by
  rw [← fixMembers?_eq_none_iff, fix?]
  cases r.fixMembers? ms with
  | none => rw [Option.map_eq_none_iff, atNode?_eq_none_iff, and_iff_left rfl]
  | some ms' => simp

/-- A tree is untouched if no object in it, as it is, calls for the rule. -/
theorem fix?_eq_none_iff {v : Json} : r.fix? v = none ↔ v.anyObject r.applies = false := by
  induction v using Json.induction with
  | array items ih =>
      rw [fix?, Option.map_eq_none_iff, fixItems?_eq_none_iff, Json.anyObject_array_eq_false]
      exact forall₂_congr ih
  | object ms ih =>
      rw [fix?_object_eq_none_iff, Json.anyObject_object_eq_false]
      exact and_congr_right fun _ => forall₂_congr ih
  | _ => exact iff_of_true rfl rfl

theorem fix_eq_self {v : Json} (h : v.anyObject r.applies = false) : r.fix v = v := by
  rw [fix, fix?_eq_none_iff.mpr h, Option.getD_none]

/-- If a rule leaves no object of some kind where there was none below it, then there is none in a
fixed tree. -/
theorem anyObject_fix_eq_false {p : Members → Bool}
    (hr : ∀ ms : Members, (∀ m ∈ ms, m.2.anyObject p = false) →
      p (r.step ms) = false ∧ ∀ m ∈ r.step ms, m.2.anyObject p = false) (v : Json) :
    (r.fix v).anyObject p = false := by
  induction v using Json.induction with
  | array items ih =>
      rw [fix_array, Json.anyObject_array_eq_false, List.forall_mem_map]
      exact ih
  | object ms ih =>
      rw [fix_object, Json.anyObject_object_eq_false]
      apply hr
      rw [Members.mapValues, List.forall_mem_map]
      exact ih
  | _ => rfl

open Json in
/-- A tree keeps distinct names if the rule lets each object keep them that it changes. -/
theorem hasDistinctNames_fix
    (hr : ∀ ms, (object ms).HasDistinctNames → (object (r.apply ms)).HasDistinctNames) {v : Json}
    (hv : v.HasDistinctNames) : (r.fix v).HasDistinctNames := by
  induction v using Json.induction with
  | array items ih =>
      rw [hasDistinctNames_array] at hv
      rw [fix_array, hasDistinctNames_array, List.forall_mem_map]
      exact fun v hmem => ih v hmem (hv v hmem)
  | object ms ih =>
      rw [hasDistinctNames_object] at hv
      have hvalues : (object (Members.mapValues (fun _ => r.fix) ms)).HasDistinctNames := by
        rw [hasDistinctNames_object, Members.names_mapValues, Members.mapValues,
          List.forall_mem_map]
        exact ⟨hv.1, fun m hm => ih m hm (hv.2 m hm)⟩
      rw [fix_object, step]
      split
      · exact hr _ hvalues
      · exact hvalues
  | _ => exact hv

end RamlSchema.Rule
