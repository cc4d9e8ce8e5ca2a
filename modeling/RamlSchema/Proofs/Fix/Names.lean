import RamlSchema.Proofs.Fix.Fusion
import Mathlib.Data.Finset.Lattice.Fold
import Mathlib.Data.Nat.Find
import Mathlib.Order.Lattice.Nat

/-!
# Names in a fixed schema

Fixing brings in five names of its own, all for the description of a file. Every other name of a
fixed schema was a name before, with at most one mark more. So the number of marks in front of a
name is what becomes smaller each time a schema is fixed.
-/

namespace RamlSchema

open Members Json

namespace FileType

/-- The names in the description of the media of a file. -/
def mediaNames : List String :=
  ["binaryEncoding", "anyOf", "mediaType"]

/-- The names that a file gets when it becomes a binary string. -/
def ownNames : List String :=
  "type" :: "media" :: mediaNames

theorem not_isFile_of_mediaNames {ms : Members} (h : ∀ k ∈ names ms, k ∈ mediaNames) :
    ¬isFile ms = true := by
  rw [Bool.not_eq_true]
  apply not_applies_of_not_mem
  exact fun htype => absurd (h _ htype) (by decide)

variable {p : Members → Prop} {q : Json → Prop} (hq : Spreads p q)
  (hp : ∀ ms, (∀ k ∈ names ms, k ∈ mediaNames) → ¬ p ms)

include hq hp

theorem exists_of_mem_alternatives {declared : Option Json} {m : String × Json}
    (hm : m ∈ alternatives declared) (h : q m.2) : ∃ v, declared = some v ∧ q v := by
  unfold alternatives at hm
  split at hm
  · next t ts =>
      rw [List.mem_singleton] at hm
      subst hm
      obtain ⟨w, hw, h⟩ := (hq.array _).mp h
      obtain ⟨mediaType, hmem, rfl⟩ := List.mem_map.mp hw
      obtain ⟨n, hn, h⟩ := ((hq.object _).mp h).resolve_left (hp _ (by simp [mediaNames]))
      rw [List.mem_singleton] at hn
      subst hn
      exact ⟨_, rfl, (hq.array _).mpr ⟨mediaType, hmem, h⟩⟩
  · exact absurd hm List.not_mem_nil

theorem exists_of_media {declared : Option Json} (h : q (media declared)) :
    ∃ v, declared = some v ∧ q v := by
  have hnode : ¬ p (("binaryEncoding", .string "binary") :: alternatives declared) := by
    apply hp
    rcases alternatives_cases declared with hnone | ⟨w, hone⟩
    · simp [hnone, mediaNames]
    · simp [hone, mediaNames]
  obtain ⟨m, hm, h⟩ := ((hq.object _).mp h).resolve_left hnode
  rcases List.mem_cons.mp hm with rfl | hm
  · exact absurd h (hq.string _)
  · exact exists_of_mem_alternatives hq hp hm h

theorem exists_of_mem_step {ms : Members} {m : String × Json} (hm : m ∈ rule.step ms)
    (h : q m.2) : ∃ n ∈ ms, q n.2 := by
  rcases mem_step hm with hm | rfl | rfl
  · exact ⟨m, hm, h⟩
  · exact absurd h (hq.string _)
  · obtain ⟨v, hdeclared, hv⟩ := exists_of_media hq hp h
    exact ⟨_, mem_of_find? hdeclared, hv⟩

/-- An object has nothing in it after it was fixed that it had not before. -/
theorem exists_of_mem_fixNode {ms : Members} {m : String × Json} (hm : m ∈ fixNode ms)
    (h : q m.2) : ∃ n ∈ ms, q n.2 := by
  have hvendor : ∀ n ∈ VendorName.rule.step (rule.step ms), q n.2 → ∃ n ∈ ms, q n.2 := by
    intro n hn h
    obtain ⟨k, hk, _⟩ := VendorName.mem_step hn
    exact exists_of_mem_step hq hp hk h
  rcases ExampleList.mem_step hm with hm | ⟨es, hes, rfl⟩
  · exact hvendor m hm h
  · obtain ⟨v, hv, h⟩ := (hq.array _).mp h
    obtain ⟨n, hn, rfl⟩ := List.mem_map.mp hv
    exact hvendor _ hes ((hq.object es).mpr (.inr ⟨n, hn, h⟩))

end FileType

open FileType (ownNames mediaNames)

/-! ### Names -/

theorem FileType.mem_ownNames_or_mem_names {ms : Members} {k : String}
    (h : k ∈ names (rule.step ms)) : k ∈ ownNames ∨ k ∈ names ms := by
  obtain ⟨m, hm, rfl⟩ := List.mem_map.mp h
  rcases mem_step hm with hm | rfl | rfl
  · exact .inr (mem_names_of_mem hm)
  · exact .inl (by simp [ownNames])
  · exact .inl (by simp [ownNames])

theorem mem_names_fixNode {ms : Members} {k : String} (h : k ∈ names (fixNode ms)) :
    k ∈ ownNames ∨ ∃ name ∈ names ms, VendorName.unmark name = k := by
  rw [fixNode, ExampleList.names_step] at h
  obtain ⟨m, hm, rfl⟩ := List.mem_map.mp h
  obtain ⟨name, hname, hunmark⟩ := VendorName.mem_step hm
  rcases FileType.mem_ownNames_or_mem_names (mem_names_of_mem hname) with hown | hmem
  · have hkept : ∀ k ∈ ownNames, VendorName.unmark k ∈ ownNames := by decide
    exact .inl (hunmark ▸ hkept name hown)
  · exact .inr ⟨name, hmem, hunmark⟩

/-- A name in a fixed schema describes a file, or it was there before, as it is or with a mark in
front of it. -/
theorem mem_allNames_fixSchema {v : Json} {k : String} (h : k ∈ (fixSchema v).allNames) :
    k ∈ ownNames ∨ ∃ name ∈ v.allNames, VendorName.unmark name = k := by
  by_cases hown : k ∈ ownNames
  · exact .inl hown
  right
  induction v using Json.induction with
  | array items ih =>
      rw [fixSchema_array, mem_allNames_array] at h
      obtain ⟨w, hw, h⟩ := h
      obtain ⟨v, hv, rfl⟩ := List.mem_map.mp hw
      obtain ⟨name, hname, hunmark⟩ := ih v hv h
      exact ⟨name, mem_allNames_array.mpr ⟨v, hv, hname⟩, hunmark⟩
  | object ms ih =>
      rw [fixSchema_object_eq_fixNode, mem_allNames_object] at h
      rcases h with h | ⟨m, hm, h⟩
      · obtain ⟨name, hname, hunmark⟩ := (mem_names_fixNode h).resolve_left hown
        rw [names_mapValues] at hname
        exact ⟨name, mem_allNames_object.mpr (.inl hname), hunmark⟩
      · have hmedia : ∀ ms : Members, (∀ k ∈ names ms, k ∈ mediaNames) → k ∉ names ms := by
          intro ms hms hk
          exact hown (List.mem_cons_of_mem _ (List.mem_cons_of_mem _ (hms k hk)))
        obtain ⟨n, hn, h⟩ := FileType.exists_of_mem_fixNode (spreads_allNames k) hmedia hm h
        obtain ⟨m, hm, rfl⟩ := List.mem_map.mp hn
        obtain ⟨name, hname, hunmark⟩ := ih m hm h
        exact ⟨name, mem_allNames_object.mpr (.inr ⟨m, hm, hname⟩), hunmark⟩
  | _ => exact absurd h List.not_mem_nil

/-! ### Marks in front of a name -/

namespace VendorName

def marks (n : Nat) : List Char :=
  (List.replicate n mark).flatten

/-- The largest number of marks that a name starts with. -/
def markCount (name : String) : Nat :=
  Nat.findGreatest (fun n => marks n <+: name.toList) name.length

theorem marks_add (m n : Nat) : marks (m + n) = marks m ++ marks n := by
  rw [marks, List.replicate_add, List.flatten_append, ← marks, ← marks]

theorem marks_succ (n : Nat) : marks (n + 1) = mark ++ marks n := by
  rw [marks, List.replicate_succ, List.flatten_cons, ← marks]

theorem le_length_marks (n : Nat) : n ≤ (marks n).length := by
  induction n with
  | zero => exact Nat.zero_le _
  | succ n ih =>
      have hmark : mark.length = 6 := rfl
      rw [marks_succ, List.length_append]
      omega

theorem le_markCount_iff {n : Nat} {name : String} :
    n ≤ markCount name ↔ marks n <+: name.toList := by
  constructor
  · intro h
    have hcount : marks (markCount name) <+: name.toList :=
      Nat.findGreatest_spec (P := fun n => marks n <+: name.toList) (Nat.zero_le _)
        List.nil_prefix
    obtain ⟨m, hm⟩ := Nat.exists_eq_add_of_le h
    rw [hm, marks_add] at hcount
    exact (List.prefix_append _ _).trans hcount
  · intro h
    refine Nat.le_findGreatest ?_ h
    have hlength := h.length_le
    rw [String.length_toList] at hlength
    exact (le_length_marks n).trans hlength

theorem isMarked_iff {name : String} :
    isMarked name = true ↔ ∃ rest, name.toList = mark ++ rest := by
  rw [isMarked, Option.isSome_iff_exists]
  exact exists_congr fun rest => afterStart?_eq_some_iff

theorem toList_of_isMarked {name : String} (h : isMarked name = true) :
    name.toList = mark ++ (unmark name).toList := by
  obtain ⟨rest, hrest⟩ := isMarked_iff.mp h
  rw [unmark, afterStart?_eq_some_iff.mpr hrest, String.toList_ofList, hrest]

theorem not_isMarked_of_mem_ownNames {k : String} (hk : k ∈ ownNames) : ¬isMarked k = true := by
  have hnone : ∀ k ∈ ownNames, ¬isMarked k = true := by decide
  exact hnone k hk

theorem isMarked_iff_markCount_pos {name : String} : isMarked name = true ↔ 0 < markCount name := by
  rw [← Nat.succ_le_iff, le_markCount_iff, marks_succ, isMarked_iff]
  show _ ↔ ∃ rest, mark ++ [] ++ rest = name.toList
  simp only [List.append_nil, eq_comm]

theorem markCount_unmark (name : String) : markCount (unmark name) = markCount name - 1 := by
  by_cases hmarked : isMarked name = true
  · have hless : ∀ n, n ≤ markCount (unmark name) ↔ n + 1 ≤ markCount name := by
      intro n
      rw [le_markCount_iff, le_markCount_iff, marks_succ, toList_of_isMarked hmarked,
        List.prefix_append_right_inj]
    have hle := (hless (markCount (unmark name))).mp le_rfl
    have hge := (hless (markCount name - 1)).mpr (by omega)
    omega
  · have hnone : ¬0 < markCount name := isMarked_iff_markCount_pos.not.mp hmarked
    rw [unmark_of_not_isMarked (Bool.eq_false_iff.mpr hmarked)]
    omega

theorem anyObject_hasMarked_iff {v : Json} :
    anyObject hasMarked v = true ↔ ∃ k ∈ v.allNames, isMarked k = true :=
  anyObject_iff_exists_name fun _ => hasMarked_iff

end VendorName

open VendorName

/-- The largest number of marks in front of a name of the tree. -/
def mostMarks (v : Json) : Nat :=
  v.allNames.toFinset.sup markCount

theorem mostMarks_le_iff {v : Json} {n : Nat} :
    mostMarks v ≤ n ↔ ∀ k ∈ v.allNames, markCount k ≤ n := by
  rw [mostMarks, Finset.sup_le_iff]
  simp only [List.mem_toFinset]

/-- Fixing takes off one mark of those names that have the most. -/
theorem mostMarks_fixSchema (v : Json) : mostMarks (fixSchema v) ≤ mostMarks v - 1 := by
  rw [mostMarks_le_iff]
  intro k hk
  rcases mem_allNames_fixSchema hk with hown | ⟨name, hname, rfl⟩
  · have hnone : ¬0 < markCount k :=
      isMarked_iff_markCount_pos.not.mp (not_isMarked_of_mem_ownNames hown)
    omega
  · rw [markCount_unmark]
    exact Nat.sub_le_sub_right (mostMarks_le_iff.mp le_rfl name hname) 1

end RamlSchema
