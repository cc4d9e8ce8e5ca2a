import RamlSchema.Fix.Schema
import RamlSchema.Proofs.Fix.Rule

/-!
# What each rule does to one object

The members of a file become those of a binary string, names lose their marks, and a mapping of
examples becomes a list. For each of the three there is here what becomes of the names and which
values the result has.
-/

namespace RamlSchema

open Members

/-! ### Files -/

namespace FileType

theorem nodup_names_step {ms : Members} (hnodup : (names ms).Nodup) :
    (names (rule.step ms)).Nodup := by
  unfold Rule.step
  split
  · exact nodup_names_put (nodup_names_put (nodup_names_remove hnodup _) _ _) _ _
  · exact hnodup

theorem isFile_iff {ms : Members} :
    isFile ms = true ↔ find? "type" ms = some (.string "file") := by
  simp [isFile]

theorem not_applies_of_not_mem {ms : Members} (h : "type" ∉ names ms) :
    rule.applies ms = false := by
  have hfind := find?_eq_none_iff.mpr h
  simp [rule, isFile, hfind]

theorem mem_step {ms : Members} {m : String × Json} (h : m ∈ rule.step ms) :
    m ∈ ms ∨ m = ("type", .string "string") ∨
      m = ("media", media (find? mediaTypesName ms)) := by
  unfold Rule.step at h
  split at h
  · rcases mem_put h with hmedia | h
    · exact .inr (.inr hmedia)
    rcases mem_put h with htype | h
    · exact .inr (.inl htype)
    · exact .inl (mem_of_mem_remove h)
  · exact .inl h

theorem isFile_step (ms : Members) : isFile (rule.step ms) = false := by
  unfold Rule.step
  split
  · have htype : find? "type" (describe ms) = some (.string "string") := by
      rw [describe, find?_put_of_ne (by decide), find?_put_self]
    show isFile (describe ms) = false
    simp [isFile, htype]
  · next h => exact Bool.not_eq_true _ ▸ h

theorem mem_names_step {ms : Members} {k : String} (hk : k ∉ ["type", "media", mediaTypesName]) :
    k ∈ names (rule.step ms) ↔ k ∈ names ms := by
  have hfind : find? k (rule.step ms) = find? k ms := by
    simp only [List.mem_cons, List.not_mem_nil, or_false, not_or] at hk
    obtain ⟨htype, hmedia, htypes⟩ := hk
    unfold Rule.step
    split
    · show find? k (describe ms) = _
      rw [describe, find?_put_of_ne hmedia, find?_put_of_ne htype, find?_remove_of_ne htypes]
    · rfl
  refine Decidable.not_iff_not.mp ?_
  rw [← find?_eq_none_iff, ← find?_eq_none_iff, hfind]

theorem hasDistinctNames_alternatives {declared : Option Json}
    (h : ∀ v, declared = some v → v.HasDistinctNames) :
    (names (alternatives declared) = [] ∨ names (alternatives declared) = ["anyOf"]) ∧
      ∀ m ∈ alternatives declared, m.2.HasDistinctNames := by
  unfold alternatives
  split
  · next t ts =>
      refine ⟨.inr rfl, List.forall_mem_singleton.mpr ?_⟩
      rw [Json.hasDistinctNames_array, List.forall_mem_map]
      intro mediaType hmem
      have hmedia := Json.hasDistinctNames_array.mp (h _ rfl) mediaType hmem
      exact Json.hasDistinctNames_object.mpr ⟨by simp [names], by simpa using hmedia⟩
  · exact ⟨.inl rfl, by simp⟩

theorem hasDistinctNames_media {declared : Option Json}
    (h : ∀ v, declared = some v → v.HasDistinctNames) : (media declared).HasDistinctNames := by
  obtain ⟨hnames, hvalues⟩ := hasDistinctNames_alternatives h
  refine Json.hasDistinctNames_object.mpr ⟨?_, List.forall_mem_cons.mpr ⟨trivial, hvalues⟩⟩
  rw [names_cons]
  rcases hnames with hnames | hnames
  · simp [hnames]
  · simp [hnames]

theorem hasDistinctNames_describe {ms : Members} (hms : (Json.object ms).HasDistinctNames) :
    (Json.object (describe ms)).HasDistinctNames := by
  refine Json.hasDistinctNames_put (Json.hasDistinctNames_put ?_ trivial) ?_
  · exact Json.hasDistinctNames_remove hms
  · exact hasDistinctNames_media fun v hv =>
      (Json.hasDistinctNames_object.mp hms).2 _ (mem_of_find? hv)

end FileType

/-! ### Marks -/

namespace VendorName

/-- The mark is there twice. -/
def isTwiceMarked (name : String) : Bool :=
  isMarked (unmark name)

/-- No later member comes to have the name of this one when marks are taken off. -/
def Lasts (ms : Members) (k : String) (v : Json) : Prop :=
  ∃ before after, ms = before ++ (k, v) :: after ∧ ∀ m ∈ after, unmark m.1 ≠ unmark k

theorem Lasts.mem {ms : Members} {k : String} {v : Json} (h : Lasts ms k v) : (k, v) ∈ ms := by
  obtain ⟨before, after, rfl, _⟩ := h
  simp

/-- The member that lasts is the last of all that come to have its name. -/
theorem lasts_iff_getLast? {ms : Members} {k : String} {v : Json} :
    Lasts ms k v ↔ (ms.filter fun m => unmark m.1 = unmark k).getLast? = some (k, v) := by
  constructor
  · rintro ⟨before, after, rfl, hafter⟩
    have hnone : after.filter (fun m => unmark m.1 = unmark k) = [] := by simpa using hafter
    simp [List.filter_append, hnone]
  · intro h
    obtain ⟨ys, hys⟩ := List.getLast?_eq_some_iff.mp h
    obtain ⟨before, last, rfl, _, hlast⟩ := List.filter_eq_append_iff.mp hys
    obtain ⟨between, after, rfl, _, _, hafter⟩ := List.filter_eq_cons_iff.mp hlast
    refine ⟨before ++ between, after, by simp, ?_⟩
    simpa using hafter

/-- Which members last under other names than those of a file does not depend on whether the object
is one. -/
theorem lasts_step_iff {ms : Members} {k : String} {v : Json}
    (hk : unmark k ∉ ["type", "media", unmark FileType.mediaTypesName]) :
    Lasts (FileType.rule.step ms) k v ↔ Lasts ms k v := by
  obtain ⟨p, hp⟩ : ∃ p : String → Bool, p = fun name => decide (unmark name = unmark k) := ⟨_, rfl⟩
  have hother : ∀ name, unmark name ∈ ["type", "media", unmark FileType.mediaTypesName] →
      p name = false := by
    intro name hname
    rw [hp, decide_eq_false_iff_not]
    exact fun heq => hk (heq ▸ hname)
  have hfilter : (FileType.rule.step ms).filter (p ·.1) = ms.filter (p ·.1) := by
    unfold Rule.step
    split
    · show (FileType.describe ms).filter (p ·.1) = _
      rw [FileType.describe, filter_put (hother "media" (by decide)),
        filter_put (hother "type" (by decide)),
        filter_remove (hother FileType.mediaTypesName (by decide))]
    · rfl
  rw [hp] at hfilter
  rw [lasts_iff_getLast?, lasts_iff_getLast?, hfilter]

theorem hasMarked_iff {ms : Members} :
    hasMarked ms = true ↔ ∃ k ∈ names ms, isMarked k = true := by
  simp [hasMarked, names]

theorem unmark_of_not_isMarked {name : String} (h : isMarked name = false) :
    unmark name = name := by
  unfold isMarked at h
  unfold unmark
  rw [Option.isSome_eq_false_iff, Option.isNone_iff_eq_none] at h
  rw [h]

/-- What is found under a name without its mark is the last member that comes to have it. -/
theorem find?_unmarkAll {ms : Members} {name : String} {v : Json} :
    find? name (unmarkAll ms) = some v ↔ ∃ k, Lasts ms k v ∧ unmark k = name := by
  rw [unmarkAll, find?_ofPairs, find?_eq_some_iff_append]
  constructor
  · intro h
    obtain ⟨before, after, hreverse, hbefore⟩ := h
    have hmap := congrArg List.reverse hreverse
    rw [List.reverse_reverse, List.reverse_append, List.reverse_cons, List.append_assoc,
      List.singleton_append, List.map_eq_append_iff] at hmap
    obtain ⟨first, last, rfl, _, hlast⟩ := hmap
    obtain ⟨m, rest, rfl, hm, hrest⟩ := List.map_eq_cons_iff.mp hlast
    obtain ⟨hname, hv⟩ := Prod.mk.inj hm
    refine ⟨m.1, ⟨first, rest, by rw [← hv], fun m' hm' heq => hbefore ?_⟩, hname⟩
    have hmem : (unmark m'.1, m'.2) ∈ before.reverse := by
      rw [← hrest]
      exact List.mem_map_of_mem hm'
    rw [← hname, ← heq]
    exact mem_names_of_mem (List.mem_reverse.mp hmem)
  · intro h
    obtain ⟨k, ⟨before, after, rfl, hafter⟩, rfl⟩ := h
    refine ⟨(after.map fun m => (unmark m.1, m.2)).reverse,
      (before.map fun m => (unmark m.1, m.2)).reverse, by simp, fun hname => ?_⟩
    simp only [names, List.map_reverse, List.mem_reverse, List.map_map, List.mem_map] at hname
    obtain ⟨m, hm, heq⟩ := hname
    exact hafter m hm heq

theorem names_unmarkAll (ms : Members) :
    names (unmarkAll ms) = ((names ms).map unmark).eraseDups := by
  rw [unmarkAll, names_ofPairs]
  simp [names, Function.comp_def]

theorem mem_names_unmarkAll {ms : Members} {name : String} :
    name ∈ names (unmarkAll ms) ↔ ∃ k ∈ names ms, unmark k = name := by
  rw [unmarkAll, mem_names_ofPairs]
  simp [names]

theorem mem_step {ms : Members} {m : String × Json} (h : m ∈ rule.step ms) :
    ∃ k, (k, m.2) ∈ ms ∧ unmark k = m.1 := by
  cases hmarked : hasMarked ms with
  | true =>
      rw [Rule.step_of_applies hmarked] at h
      obtain ⟨n, hn, rfl⟩ := List.mem_map.mp (mem_of_mem_ofPairs h)
      exact ⟨n.1, hn, rfl⟩
  | false =>
      rw [Rule.step_of_not_applies hmarked] at h
      refine ⟨m.1, h, unmark_of_not_isMarked ?_⟩
      rw [← Bool.not_eq_true] at hmarked ⊢
      exact fun hm => hmarked (hasMarked_iff.mpr ⟨m.1, mem_names_of_mem h, hm⟩)

/-- Where no name comes twice, the rule takes marks off whether or not there are any. -/
theorem step_eq_unmarkAll {ms : Members} (hnodup : (names ms).Nodup) :
    rule.step ms = unmarkAll ms := by
  cases hmarked : hasMarked ms with
  | true => exact Rule.step_of_applies hmarked
  | false =>
      have hsame : (ms.map fun m => (unmark m.1, m.2)) = ms := by
        refine (List.map_congr_left fun m hm => ?_).trans (List.map_id ms)
        have hname : isMarked m.1 = false := by
          cases hk : isMarked m.1 with
          | false => rfl
          | true =>
              have hmem : ∃ k ∈ names ms, isMarked k = true := ⟨m.1, mem_names_of_mem hm, hk⟩
              rw [hasMarked_iff.mpr hmem] at hmarked
              exact hmarked
        show (unmark m.1, m.2) = m
        rw [unmark_of_not_isMarked hname]
      rw [Rule.step_of_not_applies hmarked, unmarkAll, hsame, ofPairs_of_nodup hnodup]

theorem hasDistinctNames_unmarkAll {ms : Members} (hms : (Json.object ms).HasDistinctNames) :
    (Json.object (unmarkAll ms)).HasDistinctNames := by
  refine Json.hasDistinctNames_ofPairs (List.forall_mem_map.mpr fun m hm => ?_)
  exact (Json.hasDistinctNames_object.mp hms).2 m hm

end VendorName

/-! ### Examples -/

namespace ExampleList

theorem hasMapping_eq_any (ms : Members) :
    hasMapping ms = (find? "examples" ms).any Json.isObject := by
  unfold hasMapping
  cases find? "examples" ms with
  | none => rfl
  | some v => cases v <;> rfl

theorem step_cases (ms : Members) :
    hasMapping ms = false ∧ rule.step ms = ms ∨
      ∃ es, find? "examples" ms = some (.object es) ∧
        rule.step ms = put "examples" (.array (es.map (·.2))) ms := by
  cases hmapping : hasMapping ms with
  | false => exact .inl ⟨rfl, Rule.step_of_not_applies hmapping⟩
  | true =>
      right
      obtain ⟨es, hes⟩ : ∃ es, find? "examples" ms = some (.object es) := by
        unfold hasMapping at hmapping
        split at hmapping
        · exact ⟨_, ‹_›⟩
        · exact absurd hmapping Bool.false_ne_true
      refine ⟨es, hes, ?_⟩
      rw [Rule.step_of_applies hmapping]
      simp only [rule, flatten, hes]

theorem mem_step {ms : Members} {m : String × Json} (h : m ∈ rule.step ms) :
    m ∈ ms ∨ ∃ es, ("examples", .object es) ∈ ms ∧ m = ("examples", .array (es.map (·.2))) := by
  rcases step_cases ms with ⟨_, hstep⟩ | ⟨es, hes, hstep⟩
  · exact .inl (hstep ▸ h)
  · rw [hstep] at h
    rcases mem_put h with rfl | h
    · exact .inr ⟨es, mem_of_find? hes, rfl⟩
    · exact .inl h

theorem names_step (ms : Members) : names (rule.step ms) = names ms := by
  rcases step_cases ms with ⟨_, hstep⟩ | ⟨es, hes, hstep⟩
  · rw [hstep]
  · rw [hstep, names_put, if_pos (mem_names_of_mem (mem_of_find? hes))]

theorem find?_step_of_ne {k : String} (hk : k ≠ "examples") (ms : Members) :
    find? k (rule.step ms) = find? k ms := by
  rcases step_cases ms with ⟨_, hstep⟩ | ⟨es, _, hstep⟩
  · rw [hstep]
  · rw [hstep, find?_put_of_ne hk]

def asList : Json → Json
  | .object ms => .array (ms.map (·.2))
  | v => v

/-- The value under a name, as a list if it is a mapping of examples. -/
def listed (name : String) (v : Json) : Json :=
  if name = "examples" then asList v else v

theorem listed_eq_self {name : String} {v : Json}
    (h : name ≠ "examples" ∨ v.isObject = false) : listed name v = v := by
  unfold listed
  split
  · next hname =>
      have hobject := h.resolve_left (not_not_intro hname)
      cases v with
      | object ms => exact absurd hobject (by simp [Json.isObject])
      | _ => rfl
  · rfl

theorem isObject_listed {name : String} {v : Json} :
    (listed name v).isObject = true ↔ v.isObject = true ∧ name ≠ "examples" := by
  unfold listed
  split
  · next hname =>
      have hlist : (asList v).isObject = false := by cases v <;> rfl
      simp [hlist, hname]
  · next hname => simp [hname]

theorem step_eq_mapValues {ms : Members} (hnodup : (names ms).Nodup) :
    rule.step ms = mapValues listed ms := by
  have hsame : (∀ es : Members, find? "examples" ms ≠ some (.object es)) →
      mapValues listed ms = ms := by
    intro h
    refine mapValues_eq_self fun m hm => ?_
    unfold listed
    split
    · next hname =>
        have hfind : find? "examples" ms = some m.2 :=
          hname ▸ (find?_eq_some_iff hnodup).mpr hm
        cases hv : m.2 with
        | object es => exact absurd (hv ▸ hfind) (h es)
        | _ => rfl
    · rfl
  cases hfind : find? "examples" ms with
  | none =>
      have happlies : rule.applies ms = false := by simp [rule, hasMapping, hfind]
      rw [Rule.step_of_not_applies happlies, hsame (by simp [hfind])]
  | some v =>
      cases v with
      | object es =>
          have happlies : rule.applies ms = true := by simp [rule, hasMapping, hfind]
          rw [Rule.step_of_applies happlies]
          show flatten ms = _
          rw [flatten, hfind]
          exact put_eq_mapValues hnodup hfind asList
      | _ =>
          have happlies : rule.applies ms = false := by simp [rule, hasMapping, hfind]
          rw [Rule.step_of_not_applies happlies, hsame (by simp [hfind])]

theorem hasDistinctNames_flatten {ms : Members} (hms : (Json.object ms).HasDistinctNames) :
    (Json.object (flatten ms)).HasDistinctNames := by
  unfold flatten
  split
  · next examples hfind =>
      have hexamples := (Json.hasDistinctNames_object.mp hms).2 _ (mem_of_find? hfind)
      refine Json.hasDistinctNames_put hms ?_
      rw [Json.hasDistinctNames_array, List.forall_mem_map]
      exact (Json.hasDistinctNames_object.mp hexamples).2
  · exact hms

end ExampleList

/-- Fixing gives no object a name twice. -/
theorem hasDistinctNames_fixSchema {v : Json} (hv : v.HasDistinctNames) :
    (fixSchema v).HasDistinctNames := by
  apply Rule.hasDistinctNames_fix fun ms hms => ExampleList.hasDistinctNames_flatten hms
  apply Rule.hasDistinctNames_fix fun ms hms => VendorName.hasDistinctNames_unmarkAll hms
  apply Rule.hasDistinctNames_fix fun ms hms => FileType.hasDistinctNames_describe hms
  exact hv

end RamlSchema
