import RamlSchema.Proofs.Json.Members
import Mathlib.Data.List.Basic

/-!
# Changes of one member

What is done to a single member of an object is done in its place: the members before it and behind it
stay. So a change of members one by one, each by itself, is the same as the changes of an object that
replace or remove one, as long as no name is there twice.
-/

namespace RamlSchema.Members

theorem replace_append_cons {name : String} {before : Members} (h : name ∉ names before)
    (newName : String) (v w : Json) (after : Members) :
    replace name newName w (before ++ (name, v) :: after) = before ++ (newName, w) :: after := by
  induction before with
  | nil => exact if_pos rfl
  | cons m before ih =>
      rw [names_cons, List.mem_cons, not_or] at h
      rw [List.cons_append, replace, if_neg (Ne.symm h.1), ih h.2, List.cons_append]

theorem remove_append_cons {name : String} {before : Members} (h : name ∉ names before)
    (v : Json) (after : Members) : remove name (before ++ (name, v) :: after) = before ++ after := by
  induction before with
  | nil => exact if_pos rfl
  | cons m before ih =>
      rw [names_cons, List.mem_cons, not_or] at h
      rw [List.cons_append, remove, if_neg (Ne.symm h.1), ih h.2, List.cons_append]

/-- To set a value where there is one is to replace it under the same name. -/
theorem put_eq_replace {name : String} {ms : Members} (hmem : name ∈ names ms) (v : Json) :
    put name v ms = replace name name v ms := by
  induction ms with
  | nil => exact absurd hmem List.not_mem_nil
  | cons m ms ih =>
      obtain ⟨other, u⟩ := m
      rw [put, replace]
      split
      · next heq => rw [heq]
      · next hne => rw [ih ((List.mem_cons.mp hmem).resolve_left (Ne.symm hne))]

section FilterMap

variable {ms : Members} {g : String × Json → Option (String × Json)}

theorem filterMap_eq_self (h : ∀ m ∈ ms, g m = some m) : ms.filterMap g = ms :=
  (List.filterMap_eq_map_iff_forall_eq_some.mpr h).trans (List.map_id ms)

variable {name : String} {v : Json} (hnodup : (names ms).Nodup) (hfind : find? name ms = some v)
  (hother : ∀ m ∈ ms, m.1 ≠ name → g m = some m)

include hnodup hfind hother

/-- What is made of one member stands in its place, where all others are kept. -/
theorem exists_filterMap_eq_append : ∃ before after : Members,
    ms = before ++ (name, v) :: after ∧ name ∉ names before ∧
      ms.filterMap g = before ++ ((g (name, v)).toList ++ after) := by
  obtain ⟨before, after, rfl, hbefore⟩ := find?_eq_some_iff_append.mp hfind
  have hafter : name ∉ names after := by
    rw [names, List.map_append, List.nodup_append, List.map_cons, List.nodup_cons] at hnodup
    exact hnodup.2.1.1
  have hkept : ∀ part : Members, name ∉ names part →
      (∀ m ∈ part, m ∈ before ++ (name, v) :: after) → part.filterMap g = part := by
    intro part hname hpart
    apply filterMap_eq_self
    intro m hm
    have hmem : m.1 ∈ names part := mem_names_of_mem hm
    exact hother m (hpart m hm) fun heq => hname (heq ▸ hmem)
  have hcons : ((name, v) :: after).filterMap g = (g (name, v)).toList ++ after.filterMap g := by
    rw [List.filterMap_cons]
    cases g (name, v) <;> rfl
  refine ⟨before, after, rfl, hbefore, ?_⟩
  rw [List.filterMap_append, hcons, hkept before hbefore fun m hm => List.mem_append_left _ hm,
    hkept after hafter fun m hm => List.mem_append_right _ (List.mem_cons_of_mem _ hm)]

theorem replace_eq_filterMap {newName : String} {w : Json}
    (hg : g (name, v) = some (newName, w)) : replace name newName w ms = ms.filterMap g := by
  obtain ⟨before, after, hms, hbefore, hmap⟩ := exists_filterMap_eq_append hnodup hfind hother
  rw [hmap, hg, hms, replace_append_cons hbefore]
  rfl

theorem remove_eq_filterMap (hg : g (name, v) = none) : remove name ms = ms.filterMap g := by
  obtain ⟨before, after, hms, hbefore, hmap⟩ := exists_filterMap_eq_append hnodup hfind hother
  rw [hmap, hg, hms, remove_append_cons hbefore]
  rfl

end FilterMap

end RamlSchema.Members
