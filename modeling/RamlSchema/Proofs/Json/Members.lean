import RamlSchema.Json.Basic
import Mathlib.Data.List.Induction

/-!
# Members of an object

How looking a name up fares under each way of changing an object. A list of members stands for a map
only as long as no name is there twice, so the facts about removing and renaming a member ask for
distinct names, and every operation is shown to keep them.
-/

namespace RamlSchema.Members

/-! ### Looking a name up -/

@[simp] theorem find?_nil (k : String) : find? k [] = none := rfl

theorem find?_cons (k name : String) (v : Json) (ms : Members) :
    find? k ((name, v) :: ms) = if name = k then some v else find? k ms := rfl

@[simp] theorem names_nil : names [] = [] := rfl

@[simp] theorem names_cons (m : String × Json) (ms : Members) :
    names (m :: ms) = m.1 :: names ms := rfl

theorem mem_names_of_mem {k : String} {v : Json} {ms : Members} (h : (k, v) ∈ ms) :
    k ∈ names ms :=
  List.mem_map_of_mem h

theorem mem_of_find? {k : String} {v : Json} {ms : Members} (h : find? k ms = some v) :
    (k, v) ∈ ms := by
  induction ms with
  | nil => simp at h
  | cons m ms ih =>
      obtain ⟨name, w⟩ := m
      rw [find?_cons] at h
      split at h
      · next heq =>
          obtain rfl := Option.some.inj h
          exact heq ▸ List.mem_cons_self
      · exact List.mem_cons_of_mem _ (ih h)

theorem find?_eq_none_iff {k : String} {ms : Members} : find? k ms = none ↔ k ∉ names ms := by
  induction ms with
  | nil => simp
  | cons m ms ih =>
      obtain ⟨name, w⟩ := m
      rw [find?_cons, names_cons, List.mem_cons, not_or, ← ih]
      by_cases hname : name = k
      · simp [hname]
      · simp [hname, Ne.symm hname]

theorem find?_eq_some_iff {ms : Members} (hnodup : (names ms).Nodup) {k : String} {v : Json} :
    find? k ms = some v ↔ (k, v) ∈ ms := by
  refine ⟨mem_of_find?, fun hmem => ?_⟩
  induction ms with
  | nil => simp at hmem
  | cons m ms ih =>
      obtain ⟨name, w⟩ := m
      rw [names_cons, List.nodup_cons] at hnodup
      rw [find?_cons]
      rcases List.mem_cons.mp hmem with heq | htail
      · obtain ⟨rfl, rfl⟩ := Prod.mk.inj heq
        exact if_pos rfl
      · have hne : name ≠ k := fun heq => hnodup.1 (heq ▸ mem_names_of_mem htail)
        rw [if_neg hne]
        exact ih hnodup.2 htail

theorem has_iff {k : String} {ms : Members} : has k ms = true ↔ k ∈ names ms := by
  rw [has, Option.isSome_iff_ne_none, ne_eq, find?_eq_none_iff, Decidable.not_not]

theorem has_eq_false_iff {k : String} {ms : Members} : has k ms = false ↔ find? k ms = none := by
  simp [has]

/-- A property of every member is a property of whatever a name is looked up to. -/
theorem forall_mem_iff_forall_find? {ms : Members} (hnodup : (names ms).Nodup)
    {p : String → Json → Prop} :
    (∀ m ∈ ms, p m.1 m.2) ↔ ∀ k v, find? k ms = some v → p k v := by
  constructor
  · intro h k v hfind
    exact h (k, v) (mem_of_find? hfind)
  · intro h m hmem
    exact h m.1 m.2 ((find?_eq_some_iff hnodup).mpr hmem)

/-! ### Changing the values -/

/-- Every value is changed by a function that is told its name. -/
def mapValues (f : String → Json → Json) (ms : Members) : Members :=
  ms.map fun m => (m.1, f m.1 m.2)

theorem mapValues_cons (f : String → Json → Json) (m : String × Json) (ms : Members) :
    mapValues f (m :: ms) = (m.1, f m.1 m.2) :: mapValues f ms :=
  rfl

theorem mapValues_congr {f g : String → Json → Json} {ms : Members}
    (h : ∀ m ∈ ms, f m.1 m.2 = g m.1 m.2) : mapValues f ms = mapValues g ms :=
  List.map_congr_left fun m hm => congrArg (Prod.mk m.1) (h m hm)

theorem mapValues_eq_self_iff {f : String → Json → Json} {ms : Members} :
    mapValues f ms = ms ↔ ∀ m ∈ ms, f m.1 m.2 = m.2 := by
  have hid : ms = ms.map id := (List.map_id ms).symm
  constructor
  · intro h m hm
    exact congrArg Prod.snd (List.map_inj_left.mp (h.trans hid) m hm)
  · intro h
    exact (List.map_congr_left fun m hm => congrArg (Prod.mk m.1) (h m hm)).trans hid.symm

theorem mapValues_eq_self {f : String → Json → Json} {ms : Members}
    (h : ∀ m ∈ ms, f m.1 m.2 = m.2) : mapValues f ms = ms :=
  mapValues_eq_self_iff.mpr h

@[simp] theorem names_mapValues (f : String → Json → Json) (ms : Members) :
    names (mapValues f ms) = names ms := by
  simp [names, mapValues]

theorem nodup_names_mapValues {f : String → Json → Json} {ms : Members}
    (hnodup : (names ms).Nodup) : (names (mapValues f ms)).Nodup := by
  rwa [names_mapValues]

theorem find?_mapValues (f : String → Json → Json) (k : String) (ms : Members) :
    find? k (mapValues f ms) = (find? k ms).map (f k) := by
  induction ms with
  | nil => rfl
  | cons m ms ih =>
      obtain ⟨name, w⟩ := m
      rw [mapValues, List.map_cons, find?_cons, find?_cons, ← mapValues, ih]
      by_cases hname : name = k
      · simp [hname]
      · simp [hname]

theorem mapValues_mapValues (f g : String → Json → Json) (ms : Members) :
    mapValues g (mapValues f ms) = mapValues (fun k v => g k (f k v)) ms := by
  simp [mapValues, Function.comp_def]

/-! ### Setting a value -/

theorem find?_put_self (k : String) (v : Json) (ms : Members) : find? k (put k v ms) = some v := by
  induction ms with
  | nil => simp [put, find?_cons]
  | cons m ms ih =>
      obtain ⟨name, w⟩ := m
      rw [put]
      split
      · next hname => rw [find?_cons, if_pos hname]
      · next hname => rw [find?_cons, if_neg hname, ih]

theorem find?_put_of_ne {k name : String} (hne : k ≠ name) (v : Json) (ms : Members) :
    find? k (put name v ms) = find? k ms := by
  induction ms with
  | nil => simp [put, find?_cons, Ne.symm hne]
  | cons m ms ih =>
      obtain ⟨other, w⟩ := m
      rw [put]
      split
      · next hname => rw [find?_cons, find?_cons, if_neg (hname ▸ Ne.symm hne),
          if_neg (hname ▸ Ne.symm hne)]
      · rw [find?_cons, find?_cons, ih]

theorem put_put (name : String) (v w : Json) (ms : Members) :
    put name v (put name w ms) = put name v ms := by
  induction ms with
  | nil => simp [put]
  | cons m ms ih =>
      obtain ⟨other, u⟩ := m
      by_cases hname : other = name
      · simp [put, hname]
      · simp [put, hname, ih]

theorem put_eq_self {k : String} {v : Json} {ms : Members} (h : find? k ms = some v) :
    put k v ms = ms := by
  induction ms with
  | nil => cases h
  | cons m ms ih =>
      obtain ⟨other, w⟩ := m
      rw [find?_cons] at h
      rw [put]
      split
      · next heq =>
          rw [if_pos heq] at h
          rw [Option.some.inj h]
      · next hne =>
          rw [if_neg hne] at h
          rw [ih h]

theorem put_eq_mapValues {ms : Members} (hnodup : (names ms).Nodup) {k : String} {v : Json}
    (hfind : find? k ms = some v) (f : Json → Json) :
    put k (f v) ms = mapValues (fun name w => if name = k then f w else w) ms := by
  induction ms with
  | nil => simp at hfind
  | cons m ms ih =>
      obtain ⟨other, w⟩ := m
      rw [names_cons, List.nodup_cons] at hnodup
      rw [find?_cons] at hfind
      rw [put, mapValues_cons]
      split
      · next heq =>
          rw [if_pos heq] at hfind
          obtain rfl := Option.some.inj hfind
          have hrest : mapValues (fun name w => if name = k then f w else w) ms = ms := by
            refine mapValues_eq_self fun m hm => if_neg fun hk => hnodup.1 ?_
            rw [heq, ← hk]
            exact mem_names_of_mem hm
          rw [hrest]
      · next hother =>
          rw [if_neg hother] at hfind
          rw [ih hnodup.2 hfind]

theorem names_put (name : String) (v : Json) (ms : Members) :
    names (put name v ms) = if name ∈ names ms then names ms else names ms ++ [name] := by
  induction ms with
  | nil => simp [put]
  | cons m ms ih =>
      obtain ⟨other, w⟩ := m
      rw [put]
      by_cases hname : other = name
      · simp [hname]
      · rw [if_neg hname, names_cons, ih, names_cons]
        by_cases hmem : name ∈ names ms
        · simp [hmem]
        · simp [hmem, Ne.symm hname]

theorem nodup_names_put {ms : Members} (hnodup : (names ms).Nodup) (name : String) (v : Json) :
    (names (put name v ms)).Nodup := by
  rw [names_put]
  split
  · exact hnodup
  · next hmem =>
      rw [List.nodup_append]
      refine ⟨hnodup, by simp, fun k hk other hother heq => ?_⟩
      rw [List.mem_singleton] at hother
      exact hmem (hother ▸ heq ▸ hk)

theorem mem_put {ms : Members} {m : String × Json} {name : String} {v : Json}
    (h : m ∈ put name v ms) : m = (name, v) ∨ m ∈ ms := by
  induction ms with
  | nil => exact .inl (by simpa [put] using h)
  | cons m' ms ih =>
      obtain ⟨other, w⟩ := m'
      rw [put] at h
      split at h
      · next hname =>
          rcases List.mem_cons.mp h with rfl | htail
          · exact .inl (by rw [hname])
          · exact .inr (List.mem_cons_of_mem _ htail)
      · rcases List.mem_cons.mp h with rfl | htail
        · exact .inr List.mem_cons_self
        · exact (ih htail).imp id (List.mem_cons_of_mem _)

/-- To set a value is to write it at a place that does not depend on the value. -/
theorem exists_put_eq_append {k : String} {ms : Members} (hnodup : (names ms).Nodup) :
    ∃ before after : Members, k ∉ names (before ++ after) ∧
      ∀ v, put k v ms = before ++ (k, v) :: after := by
  induction ms with
  | nil => exact ⟨[], [], List.not_mem_nil, fun v => rfl⟩
  | cons m ms ih =>
      obtain ⟨other, w⟩ := m
      rw [names_cons, List.nodup_cons] at hnodup
      by_cases hother : other = k
      · subst hother
        exact ⟨[], ms, hnodup.1, fun v => if_pos rfl⟩
      · obtain ⟨before, after, hfresh, hput⟩ := ih hnodup.2
        refine ⟨(other, w) :: before, after, ?_, fun v => ?_⟩
        · rw [List.cons_append, names_cons, List.mem_cons, not_or]
          exact ⟨Ne.symm hother, hfresh⟩
        · rw [put, if_neg hother, hput, List.cons_append]

/-! ### Removing a member -/

theorem names_remove (name : String) (ms : Members) :
    names (remove name ms) = (names ms).erase name := by
  induction ms with
  | nil => rfl
  | cons m ms ih =>
      obtain ⟨other, w⟩ := m
      rw [remove, names_cons, List.erase_cons]
      by_cases hname : other = name
      · simp [hname]
      · simp [hname, ih]

theorem nodup_names_remove {ms : Members} (hnodup : (names ms).Nodup) (name : String) :
    (names (remove name ms)).Nodup := by
  rw [names_remove]
  exact hnodup.erase name

theorem find?_remove_self {ms : Members} (hnodup : (names ms).Nodup) (k : String) :
    find? k (remove k ms) = none := by
  rw [find?_eq_none_iff, names_remove]
  exact hnodup.not_mem_erase

theorem find?_remove_of_ne {k name : String} (hne : k ≠ name) (ms : Members) :
    find? k (remove name ms) = find? k ms := by
  induction ms with
  | nil => rfl
  | cons m ms ih =>
      obtain ⟨other, w⟩ := m
      rw [remove, find?_cons]
      split
      · next hname => rw [if_neg (hname ▸ Ne.symm hne)]
      · rw [find?_cons, ih]

theorem remove_put_of_not_mem {k : String} {v : Json} {ms : Members} (h : k ∉ names ms) :
    remove k (put k v ms) = ms := by
  induction ms with
  | nil => simp [put, remove]
  | cons m ms ih =>
      obtain ⟨other, w⟩ := m
      rw [names_cons, List.mem_cons, not_or] at h
      rw [put, if_neg (Ne.symm h.1), remove, if_neg (Ne.symm h.1), ih h.2]

theorem mem_of_mem_remove {ms : Members} {m : String × Json} {name : String}
    (h : m ∈ remove name ms) : m ∈ ms := by
  induction ms with
  | nil => exact h
  | cons m' ms ih =>
      obtain ⟨other, w⟩ := m'
      rw [remove] at h
      split at h
      · exact List.mem_cons_of_mem _ h
      · rcases List.mem_cons.mp h with rfl | htail
        · exact List.mem_cons_self
        · exact List.mem_cons_of_mem _ (ih htail)

/-! ### Renaming a member in place -/

theorem find?_replace_new {ms : Members} {name newName : String} (hmem : name ∈ names ms)
    (hnew : newName ∉ names ms) (v : Json) :
    find? newName (replace name newName v ms) = some v := by
  induction ms with
  | nil => simp at hmem
  | cons m ms ih =>
      obtain ⟨other, w⟩ := m
      rw [names_cons, List.mem_cons, not_or] at hnew
      rw [replace]
      split
      · rw [find?_cons, if_pos rfl]
      · next hname =>
          rw [find?_cons, if_neg (Ne.symm hnew.1)]
          exact ih ((List.mem_cons.mp hmem).resolve_left (Ne.symm hname)) hnew.2

theorem find?_replace_of_ne {k name newName : String} (hname : k ≠ name) (hnew : k ≠ newName)
    (v : Json) (ms : Members) : find? k (replace name newName v ms) = find? k ms := by
  induction ms with
  | nil => rfl
  | cons m ms ih =>
      obtain ⟨other, w⟩ := m
      rw [replace]
      split
      · next heq => rw [find?_cons, find?_cons, if_neg (Ne.symm hnew),
          if_neg (heq ▸ Ne.symm hname)]
      · rw [find?_cons, find?_cons, ih]

theorem mem_names_replace {ms : Members} {k name newName : String} {v : Json}
    (h : k ∈ names (replace name newName v ms)) : k = newName ∨ k ∈ names ms := by
  induction ms with
  | nil => exact .inr h
  | cons m ms ih =>
      obtain ⟨other, w⟩ := m
      rw [replace] at h
      split at h
      · exact (List.mem_cons.mp h).imp id (List.mem_cons_of_mem _)
      · rcases List.mem_cons.mp h with rfl | htail
        · exact .inr List.mem_cons_self
        · exact (ih htail).imp id (List.mem_cons_of_mem _)

theorem nodup_names_replace {ms : Members} {name newName : String} (hnodup : (names ms).Nodup)
    (hnew : newName ∉ names ms) (v : Json) :
    (names (replace name newName v ms)).Nodup := by
  induction ms with
  | nil => exact hnodup
  | cons m ms ih =>
      obtain ⟨other, w⟩ := m
      rw [names_cons, List.nodup_cons] at hnodup
      rw [names_cons, List.mem_cons, not_or] at hnew
      rw [replace]
      split
      · rw [names_cons, List.nodup_cons]
        exact ⟨hnew.2, hnodup.2⟩
      · rw [names_cons, List.nodup_cons]
        refine ⟨fun hmem => ?_, ih hnodup.2 hnew.2⟩
        rcases mem_names_replace hmem with heq | hmem
        · exact hnew.1 heq.symm
        · exact hnodup.1 hmem

theorem find?_replace_old {ms : Members} {name newName : String} (hnodup : (names ms).Nodup)
    (hne : name ≠ newName) (v : Json) : find? name (replace name newName v ms) = none := by
  induction ms with
  | nil => rfl
  | cons m ms ih =>
      obtain ⟨other, w⟩ := m
      rw [names_cons, List.nodup_cons] at hnodup
      rw [replace]
      split
      · next heq =>
          rw [find?_cons, if_neg (Ne.symm hne), find?_eq_none_iff]
          exact heq ▸ hnodup.1
      · next hother => rw [find?_cons, if_neg hother, ih hnodup.2]

/-! ### A part of the members

Changes under names that a part leaves out are not seen in it. -/

section Part

variable {p : String → Bool} {name newName : String} (hname : p name = false)

include hname

theorem filter_put (v : Json) (ms : Members) :
    (put name v ms).filter (p ·.1) = List.filter (p ·.1) ms := by
  induction ms with
  | nil => simp [put, hname]
  | cons m ms ih =>
      obtain ⟨other, w⟩ := m
      rw [put]
      split
      · next heq => simp [heq, hname]
      · rw [List.filter_cons, List.filter_cons, ih]

theorem filter_remove (ms : Members) :
    (remove name ms).filter (p ·.1) = List.filter (p ·.1) ms := by
  induction ms with
  | nil => rfl
  | cons m ms ih =>
      obtain ⟨other, w⟩ := m
      rw [remove]
      split
      · next heq => simp [heq, hname]
      · rw [List.filter_cons, List.filter_cons, ih]

theorem filter_replace (hnew : p newName = false) (v : Json) (ms : Members) :
    (replace name newName v ms).filter (p ·.1) = List.filter (p ·.1) ms := by
  induction ms with
  | nil => rfl
  | cons m ms ih =>
      obtain ⟨other, w⟩ := m
      rw [replace]
      split
      · next heq => simp [heq, hname, hnew]
      · rw [List.filter_cons, List.filter_cons, ih]

end Part

theorem filter_mapValues {p : String → Bool} {f : String → Json → Json} {ms : Members}
    (h : ∀ m ∈ ms, p m.1 = true → f m.1 m.2 = m.2) :
    (mapValues f ms).filter (p ·.1) = List.filter (p ·.1) ms := by
  rw [mapValues, List.filter_map]
  refine mapValues_eq_self fun m hm => ?_
  obtain ⟨hmem, hp⟩ := List.mem_filter.mp hm
  exact h m hmem hp

/-! ### Pairs written one after the other -/

theorem find?_append (k : String) (ms ns : Members) :
    find? k (ms ++ ns) = (find? k ms).or (find? k ns) := by
  induction ms with
  | nil => rfl
  | cons m ms ih =>
      obtain ⟨other, w⟩ := m
      rw [List.cons_append, find?_cons, find?_cons]
      split
      · rfl
      · exact ih

theorem find?_eq_some_iff_append {k : String} {v : Json} {ms : Members} :
    find? k ms = some v ↔ ∃ before after, ms = before ++ (k, v) :: after ∧ k ∉ names before := by
  constructor
  · intro h
    induction ms with
    | nil => simp at h
    | cons m ms ih =>
        obtain ⟨other, w⟩ := m
        rw [find?_cons] at h
        split at h
        · next heq =>
            obtain rfl := Option.some.inj h
            exact ⟨[], ms, by rw [heq]; rfl, List.not_mem_nil⟩
        · next hother =>
            obtain ⟨before, after, rfl, hbefore⟩ := ih h
            refine ⟨(other, w) :: before, after, rfl, ?_⟩
            rw [names_cons, List.mem_cons, not_or]
            exact ⟨Ne.symm hother, hbefore⟩
  · intro h
    obtain ⟨before, after, rfl, hbefore⟩ := h
    rw [find?_append, find?_eq_none_iff.mpr hbefore, find?_cons, if_pos rfl]
    rfl

theorem find?_foldl_put (k : String) (pairs : List (String × Json)) (ms : Members) :
    find? k (pairs.foldl (fun ms (k, v) => put k v ms) ms) =
      (find? k pairs.reverse).or (find? k ms) := by
  induction pairs generalizing ms with
  | nil => rfl
  | cons m rest ih =>
      obtain ⟨other, w⟩ := m
      have hput : find? k (put other w ms) = (find? k [(other, w)]).or (find? k ms) := by
        rw [find?_cons]
        split
        · next heq => rw [heq, find?_put_self, Option.some_or]
        · next hother => rw [find?_put_of_ne (Ne.symm hother), find?_nil, Option.none_or]
      rw [List.foldl_cons, ih, hput, List.reverse_cons, find?_append, Option.or_assoc]

/-- A name has the value that came last. -/
theorem find?_ofPairs (k : String) (pairs : List (String × Json)) :
    find? k (ofPairs pairs) = find? k pairs.reverse := by
  rw [ofPairs, find?_foldl_put, find?_nil, Option.or_none]

theorem nodup_names_ofPairs (pairs : List (String × Json)) : (names (ofPairs pairs)).Nodup := by
  have hfold : ∀ ms : Members, (names ms).Nodup →
      (names (pairs.foldl (fun ms (k, v) => put k v ms) ms)).Nodup := by
    induction pairs with
    | nil => exact fun ms h => h
    | cons m rest ih => exact fun ms h => ih _ (nodup_names_put h _ _)
  exact hfold [] List.nodup_nil

theorem mem_of_mem_ofPairs {pairs : List (String × Json)} {m : String × Json}
    (h : m ∈ ofPairs pairs) : m ∈ pairs := by
  have hfind := (find?_eq_some_iff (nodup_names_ofPairs pairs)).mpr h
  rw [find?_ofPairs] at hfind
  exact List.mem_reverse.mp (mem_of_find? hfind)

theorem mem_names_ofPairs {k : String} {pairs : List (String × Json)} :
    k ∈ names (ofPairs pairs) ↔ k ∈ names pairs := by
  have hreverse : k ∈ names pairs.reverse ↔ k ∈ names pairs := by
    rw [names, List.map_reverse, List.mem_reverse, names]
  rw [← hreverse]
  refine Decidable.not_iff_not.mp ?_
  rw [← find?_eq_none_iff, ← find?_eq_none_iff, find?_ofPairs]

/-- A name stands where it came first. -/
theorem names_ofPairs (pairs : List (String × Json)) :
    names (ofPairs pairs) = (names pairs).eraseDups := by
  induction pairs using List.reverseRecOn with
  | nil => rfl
  | append_singleton pairs m ih =>
      have hput : ofPairs (pairs ++ [m]) = put m.1 m.2 (ofPairs pairs) := by
        rw [ofPairs, List.foldl_append]
        rfl
      have hnames : names (pairs ++ [m]) = names pairs ++ [m.1] := List.map_append
      rw [hput, hnames, names_put, ih, List.eraseDups_append]
      by_cases hmem : m.1 ∈ names pairs
      · simp [hmem, List.mem_eraseDups, List.removeAll]
      · simp [hmem, List.mem_eraseDups, List.removeAll, List.eraseDups_cons]

theorem put_of_not_mem {name : String} {ms : Members} (h : name ∉ names ms) (v : Json) :
    put name v ms = ms ++ [(name, v)] := by
  induction ms with
  | nil => rfl
  | cons m ms ih =>
      obtain ⟨other, w⟩ := m
      rw [names_cons, List.mem_cons, not_or] at h
      rw [put, if_neg (Ne.symm h.1), ih h.2, List.cons_append]

theorem foldl_put_of_nodup (pairs : List (String × Json)) (ms : Members)
    (h : (names (ms ++ pairs)).Nodup) :
    pairs.foldl (fun ms (k, v) => put k v ms) ms = ms ++ pairs := by
  induction pairs generalizing ms with
  | nil => exact (List.append_nil ms).symm
  | cons m rest ih =>
      obtain ⟨k, v⟩ := m
      have hsplit : ms ++ (k, v) :: rest = ms ++ [(k, v)] ++ rest := by simp
      have hnew : k ∉ names ms := by
        rw [names, List.map_append, List.nodup_append] at h
        exact fun hk => h.2.2 _ hk k List.mem_cons_self rfl
      rw [hsplit] at h ⊢
      show rest.foldl _ (put k v ms) = _
      rw [put_of_not_mem hnew]
      exact ih _ h

/-- Where no name comes twice, nothing is lost and the order stays. -/
theorem ofPairs_of_nodup {pairs : List (String × Json)} (hnodup : (names pairs).Nodup) :
    ofPairs pairs = pairs :=
  foldl_put_of_nodup pairs [] hnodup

theorem mapValues_put (f : Json → Json) (k : String) (v : Json) (ms : Members) :
    mapValues (fun _ => f) (put k v ms) = put k (f v) (mapValues (fun _ => f) ms) := by
  induction ms with
  | nil => rfl
  | cons m ms ih =>
      obtain ⟨other, w⟩ := m
      rw [mapValues_cons, put, put]
      split
      · rfl
      · rw [mapValues_cons, ih]

theorem mapValues_remove (f : Json → Json) (k : String) (ms : Members) :
    mapValues (fun _ => f) (remove k ms) = remove k (mapValues (fun _ => f) ms) := by
  induction ms with
  | nil => rfl
  | cons m ms ih =>
      obtain ⟨other, w⟩ := m
      rw [mapValues_cons, remove, remove]
      split
      · rfl
      · rw [mapValues_cons, ih]

theorem mapValues_ofPairs (f : Json → Json) (pairs : List (String × Json)) :
    mapValues (fun _ => f) (ofPairs pairs) = ofPairs (mapValues (fun _ => f) pairs) := by
  have hfold : ∀ ms : Members,
      mapValues (fun _ => f) (pairs.foldl (fun ms (k, v) => put k v ms) ms) =
        (mapValues (fun _ => f) pairs).foldl (fun ms (k, v) => put k v ms)
          (mapValues (fun _ => f) ms) := by
    induction pairs with
    | nil => exact fun ms => rfl
    | cons m rest ih =>
        intro ms
        rw [List.foldl_cons, ih, mapValues_put, mapValues_cons, List.foldl_cons]
  exact hfold []

end RamlSchema.Members
