import Mathlib.Data.List.Forall2
import RamlSchema.Proofs.Json.Tree

/-!
# Values up to the order of members

As mappings, two objects are the same if they have the same names and the same value under each of
them, in whatever order the members stand. A property that is gathered over a tree does not notice a
difference in order if no single object does.
-/

namespace RamlSchema.Json

open Members

/-- Two values that differ in the order of the members of their objects and in nothing else. -/
inductive Alike : Json → Json → Prop
  | refl (v : Json) : Alike v v
  | array {items items' : List Json} (hlength : items.length = items'.length)
      (h : ∀ (i : Nat) v w, items[i]? = some v → items'[i]? = some w → Alike v w) :
      Alike (.array items) (.array items')
  | object {ms ms' : Members} (hnames : (names ms).Perm (names ms'))
      (h : ∀ k v w, find? k ms = some v → find? k ms' = some w → Alike v w) :
      Alike (.object ms) (.object ms')

namespace Alike

variable {v w : Json} {ms ms' : Members}

theorem names_perm (h : Alike (.object ms) (.object ms')) : (names ms).Perm (names ms') := by
  cases h with
  | refl => exact List.Perm.refl _
  | object hnames _ => exact hnames

theorem exists_find? (h : Alike (.object ms) (.object ms')) {k : String}
    (hfind : find? k ms = some v) : ∃ w, find? k ms' = some w ∧ Alike v w := by
  cases h with
  | refl => exact ⟨v, hfind, .refl v⟩
  | object hnames h =>
      have hmem : k ∈ names ms' := hnames.mem_iff.mp (mem_names_of_mem (mem_of_find? hfind))
      obtain ⟨w, hw⟩ := Option.isSome_iff_exists.mp (has_iff.mpr hmem)
      exact ⟨w, hw, h k v w hfind hw⟩

theorem string_eq {s : String} (h : Alike (.string s) w) : w = .string s := by
  cases h
  rfl

theorem isObject_eq (h : Alike v w) : w.isObject = v.isObject := by
  cases h with
  | refl => rfl
  | array => rfl
  | object => rfl

theorem symm (h : Alike v w) : Alike w v := by
  induction h with
  | refl v => exact .refl v
  | array hlength _ ih => exact .array hlength.symm fun i w v hw hv => ih i v w hv hw
  | object hnames _ ih => exact .object hnames.symm fun k w v hw hv => ih k v w hv hw

theorem eq_of_depth_eq_zero (h : Alike v w) (hv : v.depth = 0) : w = v := by
  cases h with
  | refl => rfl
  | array => exact absurd hv (Nat.succ_ne_zero _)
  | object => exact absurd hv (Nat.succ_ne_zero _)

theorem exists_array {items : List Json} (h : Alike (.array items) w) :
    ∃ items', w = .array items' ∧ List.Forall₂ Alike items items' := by
  cases h with
  | refl => exact ⟨items, rfl, List.forall₂_same.mpr fun v _ => .refl v⟩
  | @array _ items' hlength h =>
      refine ⟨items', rfl, List.forall₂_iff_get.mpr ⟨hlength, fun i hi hi' => ?_⟩⟩
      exact h i _ _ (List.getElem?_eq_getElem hi) (List.getElem?_eq_getElem hi')

theorem ne_nil_of_items {items items' : List Json} (h : List.Forall₂ Alike items items')
    (hne : items ≠ []) : items' ≠ [] := by
  rwa [← List.length_pos_iff, ← h.length_eq, List.length_pos_iff]

theorem exists_of_mem_items {items items' : List Json} (h : List.Forall₂ Alike items items')
    (hw : w ∈ items') : ∃ v ∈ items, Alike v w := by
  obtain ⟨i, hi, rfl⟩ := List.mem_iff_getElem.mp hw
  have hi' : i < items.length := h.length_eq ▸ hi
  exact ⟨items[i], List.getElem_mem hi', h.get hi' hi⟩

theorem exists_object (h : Alike (.object ms) w) : ∃ ms', w = .object ms' := by
  cases h with
  | refl => exact ⟨ms, rfl⟩
  | @object _ ms' => exact ⟨ms', rfl⟩

theorem exists_member? {name : String} {u : Json} (h : Alike v w)
    (hu : v.member? name = some u) : ∃ u', w.member? name = some u' ∧ Alike u u' := by
  cases v with
  | object ms =>
      obtain ⟨ms', rfl⟩ := h.exists_object
      exact h.exists_find? hu
  | _ => cases hu

theorem exists_mem (h : Alike (.object ms) (.object ms')) (hnodup : (names ms').Nodup)
    {m : String × Json} (hm : m ∈ ms') : ∃ v, (m.1, v) ∈ ms ∧ Alike v m.2 := by
  obtain ⟨v, hv, halike⟩ := h.symm.exists_find? ((find?_eq_some_iff hnodup).mpr hm)
  exact ⟨v, mem_of_find? hv, halike.symm⟩

theorem hasDistinctNames (h : Alike v w) (hnames : v.HasDistinctNames) : w.HasDistinctNames := by
  induction h with
  | refl v => exact hnames
  | @array items items' hlength h ih =>
      rw [hasDistinctNames_array] at hnames ⊢
      intro u hu
      obtain ⟨i, hi, rfl⟩ := List.mem_iff_getElem.mp hu
      have hi' : i < items.length := hlength ▸ hi
      exact ih i items[i] items'[i] (List.getElem?_eq_getElem hi') (List.getElem?_eq_getElem hi)
        (hnames _ (List.getElem_mem hi'))
  | @object ms ms' hperm h ih =>
      obtain ⟨hnodup, hvalues⟩ := hasDistinctNames_object.mp hnames
      have hnodup' := hperm.nodup_iff.mp hnodup
      refine hasDistinctNames_object.mpr ⟨hnodup', fun m hm => ?_⟩
      obtain ⟨u, hu, _⟩ := (Alike.object hperm h).exists_mem hnodup' hm
      exact ih m.1 u m.2 ((find?_eq_some_iff hnodup).mpr hu)
        ((find?_eq_some_iff hnodup').mpr hm) (hvalues _ hu)

theorem trans {u : Json} (h : Alike v w) (h' : Alike w u) : Alike v u := by
  induction h generalizing u with
  | refl v => exact h'
  | @array items items' hlength h ih =>
      obtain ⟨items'', rfl, halikes⟩ := h'.exists_array
      refine .array (hlength.trans halikes.length_eq) fun i a c ha hc => ?_
      obtain ⟨hi'', rfl⟩ := List.getElem?_eq_some_iff.mp hc
      have hi' : i < items'.length := halikes.length_eq ▸ hi''
      exact ih i a items'[i] ha (List.getElem?_eq_getElem hi') (halikes.get hi' hi'')
  | @object ms ms' hnames h ih =>
      obtain ⟨ms'', rfl⟩ := h'.exists_object
      refine .object (hnames.trans h'.names_perm) fun k a c ha hc => ?_
      obtain ⟨b, hb, _⟩ := (Alike.object hnames h).exists_find? ha
      obtain ⟨c', hc', hbc⟩ := h'.exists_find? hb
      obtain rfl := Option.some.inj (hc.symm.trans hc')
      exact ih k a b ha hb hbc

/-- One object with its members in another order. -/
theorem of_perm (hperm : ms.Perm ms') (hnodup : (names ms).Nodup) :
    Alike (.object ms) (.object ms') := by
  refine .object (hperm.map _) fun k v w hv hw => ?_
  have hmem := hperm.mem_iff.mpr (mem_of_find? hw)
  obtain rfl := Option.some.inj (hv.symm.trans ((find?_eq_some_iff hnodup).mpr hmem))
  exact .refl v

theorem array_cons {items items' : List Json} (h : Alike v w)
    (hrest : Alike (.array items) (.array items')) :
    Alike (.array (v :: items)) (.array (w :: items')) := by
  obtain ⟨_, hitems, halikes⟩ := hrest.exists_array
  obtain rfl := Json.array.inj hitems
  refine .array (congrArg Nat.succ halikes.length_eq) fun i u u' hu hu' => ?_
  cases i with
  | zero =>
      obtain rfl := Option.some.inj hu
      obtain rfl := Option.some.inj hu'
      exact h
  | succ i =>
      obtain ⟨hi, rfl⟩ := List.getElem?_eq_some_iff.mp hu
      obtain ⟨hi', rfl⟩ := List.getElem?_eq_some_iff.mp hu'
      exact halikes.get (Nat.lt_of_succ_lt_succ hi) (Nat.lt_of_succ_lt_succ hi')

theorem object_cons {k : String} (h : Alike v w) (hrest : Alike (.object ms) (.object ms')) :
    Alike (.object ((k, v) :: ms)) (.object ((k, w) :: ms')) := by
  refine .object (hrest.names_perm.cons k) fun l u u' hu hu' => ?_
  rw [find?] at hu hu'
  split at hu
  · next hk =>
      rw [if_pos hk] at hu'
      obtain rfl := Option.some.inj hu
      obtain rfl := Option.some.inj hu'
      exact h
  · next hk =>
      rw [if_neg hk] at hu'
      obtain ⟨t, ht, halike⟩ := hrest.exists_find? hu
      obtain rfl := Option.some.inj (hu'.symm.trans ht)
      exact halike

/-- What is somewhere in a tree is somewhere in every tree that is alike, if that is so of each single
object. -/
theorem of_spreads {p : Members → Prop} {q : Json → Prop} (hq : Spreads p q)
    (hp : ∀ {ms ms'}, Alike (.object ms) (.object ms') → p ms → p ms') (h : Alike v w)
    (hnames : v.HasDistinctNames) (hv : q v) : q w := by
  induction h with
  | refl v => exact hv
  | @array items items' hlength h ih =>
      rw [hasDistinctNames_array] at hnames
      obtain ⟨u, hu, hinside⟩ := (hq.array items).mp hv
      obtain ⟨i, hi, rfl⟩ := List.mem_iff_getElem.mp hu
      have hi' : i < items'.length := hlength ▸ hi
      have hitem : q items'[i] := ih i items[i] items'[i] (List.getElem?_eq_getElem hi)
        (List.getElem?_eq_getElem hi') (hnames _ hu) hinside
      exact (hq.array items').mpr ⟨items'[i], List.getElem_mem hi', hitem⟩
  | @object ms ms' hperm h ih =>
      obtain ⟨hnodup, hvalues⟩ := hasDistinctNames_object.mp hnames
      have hobject : Alike (.object ms) (.object ms') := .object hperm h
      rcases (hq.object ms).mp hv with hown | ⟨m, hm, hinside⟩
      · exact (hq.object ms').mpr (.inl (hp hobject hown))
      · have hfind : find? m.1 ms = some m.2 := (find?_eq_some_iff hnodup).mpr hm
        obtain ⟨w, hw, -⟩ := hobject.exists_find? hfind
        have hvalue : q w := ih m.1 m.2 w hfind hw (hvalues m hm) hinside
        exact (hq.object ms').mpr (.inr ⟨(m.1, w), mem_of_find? hw, hvalue⟩)

theorem anyObject_eq_false {p : Members → Bool}
    (hp : ∀ {ms ms'}, Alike (.object ms) (.object ms') → p ms = true → p ms' = true)
    (hnames : v.HasDistinctNames) (h : Alike v w) (hw : anyObject p w = false) :
    anyObject p v = false := by
  rw [← Bool.not_eq_true] at hw ⊢
  exact fun hv => hw (h.of_spreads (spreads_anyObject p) hp hnames hv)

end Alike

end RamlSchema.Json
