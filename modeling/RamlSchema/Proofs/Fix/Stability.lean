import RamlSchema.Proofs.Fix.Clean
import Mathlib.Logic.Function.Iterate

/-!
# Fixing again and again

A mark that is taken off can uncover another mark, or the name `type` of a file. So a fixed schema
can have something to be fixed in it, but not for ever. Each time there is one mark less in front of
the names that have the most. When there are none left, only a name that has just lost its last mark
can have made an object a file, and that name is `type`.
-/

namespace RamlSchema

open Members Json VendorName

/-- The name `type` with marks in front of it. -/
def IsMarkedType (name : String) : Prop :=
  ∃ n, name.toList = marks (n + 1) ++ "type".toList

theorem IsMarkedType.isMarked {name : String} (h : IsMarkedType name) : isMarked name = true := by
  obtain ⟨n, hn⟩ := h
  rw [isMarked_iff]
  exact ⟨marks n ++ "type".toList, by rw [hn, marks_succ, List.append_assoc]⟩

theorem isMarkedType_of_unmark_eq {name : String} (hmarked : isMarked name = true)
    (htype : unmark name = "type") : IsMarkedType name :=
  ⟨0, by rw [toList_of_isMarked hmarked, htype]; rfl⟩

theorem isMarkedType_of_unmark {name : String} (h : IsMarkedType (unmark name)) :
    IsMarkedType name := by
  by_cases hmarked : isMarked name = true
  · obtain ⟨n, hn⟩ := h
    exact ⟨n + 1, by rw [toList_of_isMarked hmarked, hn, marks_succ (n + 1), List.append_assoc]⟩
  · rwa [unmark_of_not_isMarked (Bool.eq_false_iff.mpr hmarked)] at h

theorem exists_isMarkedType_of_mem_fixSchema {v : Json} {name : String}
    (hname : name ∈ (fixSchema v).allNames) (h : IsMarkedType name) :
    ∃ k ∈ v.allNames, IsMarkedType k := by
  rcases mem_allNames_fixSchema hname with hown | ⟨k, hk, rfl⟩
  · exact absurd h.isMarked (not_isMarked_of_mem_ownNames hown)
  · exact ⟨k, hk, isMarkedType_of_unmark h⟩

namespace FileType

/-- An object that is a file after it was fixed got its type under a name with a mark. -/
theorem isFile_fixNode {ms : Members} (hnodup : (names ms).Nodup)
    (h : isFile (fixNode ms) = true) : ∃ name ∈ names ms, IsMarkedType name := by
  rw [isFile_iff, fixNode, ExampleList.find?_step_of_ne (by decide),
    step_eq_unmarkAll (nodup_names_step hnodup), find?_unmarkAll] at h
  obtain ⟨k, hlasts, hk⟩ := h
  by_cases hmarked : isMarked k = true
  · rcases mem_ownNames_or_mem_names (mem_names_of_mem hlasts.mem) with hown | hmem
    · exact absurd hmarked (not_isMarked_of_mem_ownNames hown)
    · exact ⟨k, hmem, isMarkedType_of_unmark_eq hmarked hk⟩
  · rw [unmark_of_not_isMarked (Bool.eq_false_iff.mpr hmarked)] at hk
    have hfile := (find?_eq_some_iff (nodup_names_step hnodup)).mpr (hk ▸ hlasts.mem)
    rw [← isFile_iff, isFile_step] at hfile
    exact absurd hfile Bool.false_ne_true

theorem exists_isMarkedType_of_anyObject_isFile {v : Json} (hnames : v.HasDistinctNames)
    (h : anyObject isFile (fixSchema v) = true) : ∃ name ∈ v.allNames, IsMarkedType name := by
  induction v using Json.induction with
  | array items ih =>
      rw [fixSchema_array, anyObject_array, List.any_map, List.any_eq_true] at h
      obtain ⟨v, hv, h⟩ := h
      obtain ⟨name, hname, htype⟩ := ih v hv (hasDistinctNames_array.mp hnames v hv) h
      exact ⟨name, mem_allNames_array.mpr ⟨v, hv, hname⟩, htype⟩
  | object ms ih =>
      obtain ⟨hnodup, hvalues⟩ := hasDistinctNames_object.mp hnames
      rw [fixSchema_object_eq_fixNode, anyObject_object, Bool.or_eq_true, List.any_eq_true] at h
      rcases h with h | ⟨m, hm, h⟩
      · obtain ⟨name, hname, htype⟩ := isFile_fixNode (nodup_names_mapValues hnodup) h
        rw [names_mapValues] at hname
        exact ⟨name, mem_allNames_object.mpr (.inl hname), htype⟩
      · obtain ⟨n, hn, h⟩ := exists_of_mem_fixNode (spreads_anyObject isFile)
          (fun _ => not_isFile_of_mediaNames) hm h
        obtain ⟨m, hm, rfl⟩ := List.mem_map.mp hn
        obtain ⟨name, hname, htype⟩ := ih m hm (hvalues m hm) h
        exact ⟨name, mem_allNames_object.mpr (.inr ⟨m, hm, hname⟩), htype⟩
  | _ => exact absurd h Bool.false_ne_true

end FileType

/-! ### One time -/

/-- Where names have one mark at most and no `type` has one, it is enough to fix a schema once. -/
theorem isClean_fixSchema {v : Json} (hnames : v.HasDistinctNames) (hmarks : mostMarks v ≤ 1)
    (htype : ∀ name ∈ v.allNames, ¬IsMarkedType name) : IsClean (fixSchema v) where
  noFile := by
    rw [← Bool.not_eq_true]
    intro h
    obtain ⟨name, hname, hmarked⟩ := FileType.exists_isMarkedType_of_anyObject_isFile hnames h
    exact htype name hname hmarked
  noMark := by
    have hless := mostMarks_fixSchema v
    exact mostMarks_eq_zero_iff.mp (by omega)
  noMapping := ExampleList.anyObject_hasMapping_fix _

/-! ### Many times -/

theorem hasDistinctNames_iterate {v : Json} (hnames : v.HasDistinctNames) (n : Nat) :
    (fixSchema^[n] v).HasDistinctNames := by
  induction n with
  | zero => exact hnames
  | succ n ih =>
      rw [Function.iterate_succ_apply']
      exact hasDistinctNames_fixSchema ih

theorem mostMarks_iterate (v : Json) (n : Nat) :
    mostMarks (fixSchema^[n] v) ≤ mostMarks v - n := by
  induction n with
  | zero => exact le_rfl
  | succ n ih =>
      rw [Function.iterate_succ_apply']
      have hless := mostMarks_fixSchema (fixSchema^[n] v)
      omega

theorem not_isMarkedType_iterate {v : Json} (htype : ∀ name ∈ v.allNames, ¬IsMarkedType name)
    (n : Nat) : ∀ name ∈ (fixSchema^[n] v).allNames, ¬IsMarkedType name := by
  induction n with
  | zero => exact htype
  | succ n ih =>
      rw [Function.iterate_succ_apply']
      intro name hname hmarked
      obtain ⟨k, hk, h⟩ := exists_isMarkedType_of_mem_fixSchema hname hmarked
      exact ih k hk h

/-- A schema that is fixed so many times is clean, and is left as it is from then on. -/
structure SettlesAfter (n : Nat) (v : Json) : Prop where
  clean : IsClean (fixSchema^[n] v)
  stays : ∀ m, n ≤ m → fixSchema^[m] v = fixSchema^[n] v

theorem settlesAfter_of_isClean {n : Nat} {v : Json} (h : IsClean (fixSchema^[n] v)) :
    SettlesAfter n v where
  clean := h
  stays m hm := by
    obtain ⟨k, rfl⟩ := Nat.exists_eq_add_of_le' hm
    rw [Function.iterate_add_apply, Function.iterate_fixed h.fixSchema_eq_self]

theorem settlesAfter_succ {n : Nat} {v : Json} (hnames : v.HasDistinctNames)
    (hmarks : mostMarks v ≤ n + 1)
    (htype : ∀ name ∈ (fixSchema^[n] v).allNames, ¬IsMarkedType name) :
    SettlesAfter (n + 1) v := by
  apply settlesAfter_of_isClean
  rw [Function.iterate_succ_apply']
  have hless := mostMarks_iterate v n
  exact isClean_fixSchema (hasDistinctNames_iterate hnames n) (by omega) htype

/-- **Fixing comes to an end.** It is enough to fix a schema once more than a name in it has marks,
and if no `type` has marks, as often as a name has marks, but at least once. -/
theorem settlesAfter_mostMarks {v : Json} (hnames : v.HasDistinctNames) :
    SettlesAfter (mostMarks v + 1) v ∧
      ((∀ name ∈ v.allNames, ¬IsMarkedType name) →
        SettlesAfter (max (mostMarks v) 1) v ∧
          (mostMarks v ≤ 1 → fixSchema (fixSchema v) = fixSchema v)) := by
  constructor
  · apply settlesAfter_succ hnames (Nat.le_succ _)
    intro name hname hmarked
    have hnone := mostMarks_le_iff.mp (mostMarks_iterate v (mostMarks v)) name hname
    have hsome := isMarked_iff_markCount_pos.mp hmarked.isMarked
    omega
  · intro htype
    obtain ⟨n, hn⟩ : ∃ n, max (mostMarks v) 1 = n + 1 := ⟨max (mostMarks v) 1 - 1, by omega⟩
    refine ⟨?_, fun hmarks => (isClean_fixSchema hnames hmarks htype).fixSchema_eq_self⟩
    rw [hn]
    exact settlesAfter_succ hnames (by omega) (not_isMarkedType_iterate htype n)

/-- A string that is a file under two marks. -/
def latentFile : Json :=
  .object [("type", .string "string"), ("x-amf-x-amf-type", .string "file")]

def pictureFile : Json :=
  .object [
    ("type", .string "file"),
    ("x-amf-fileTypes", .array [.string "image/png"]),
    ("x-amf-examples", .object [("empty", .object [("type", .string "file")])])]

/-- Each number of times is needed: the file under two marks is uncovered by the second time and
described by the third, and two marks on any other name are gone after the second. -/
theorem settlesAfter_latentFile :
    (mostMarks latentFile = 2 ∧ SettlesAfter 3 latentFile ∧ ¬SettlesAfter 2 latentFile) ∧
      (mostMarks markedFile = 2 ∧ SettlesAfter 2 markedFile ∧ ¬SettlesAfter 1 markedFile) ∧
      mostMarks pictureFile = 1 ∧ fixSchema pictureFile ≠ pictureFile ∧
        fixSchema (fixSchema pictureFile) = fixSchema pictureFile := by
  have hlatent : latentFile.HasDistinctNames := by
    simp [latentFile, HasDistinctNames, MembersHaveDistinctNames]
  have hmarked : markedFile.HasDistinctNames := by
    simp [markedFile, HasDistinctNames, ItemsHaveDistinctNames, MembersHaveDistinctNames]
  have hpicture : pictureFile.HasDistinctNames := by
    simp [pictureFile, HasDistinctNames, ItemsHaveDistinctNames, MembersHaveDistinctNames]
  have htype : ∀ v : Json,
      (∀ name ∈ v.allNames, isMarked name = true → ¬"type".toList <:+ name.toList) →
        ∀ name ∈ v.allNames, ¬IsMarkedType name := by
    intro v hends name hname h
    obtain ⟨n, hn⟩ := h
    exact hends name hname (IsMarkedType.isMarked ⟨n, hn⟩) ⟨_, hn.symm⟩
  refine ⟨⟨by decide, (settlesAfter_mostMarks hlatent).1, fun h => ?_⟩,
    ⟨by decide, ((settlesAfter_mostMarks hmarked).2 (htype _ (by decide))).1, fun h => ?_⟩,
    by decide, by decide, ((settlesAfter_mostMarks hpicture).2 (htype _ (by decide))).2 (by decide)⟩
  · exact absurd h.clean.noFile (by decide)
  · exact absurd h.clean.noMark (by decide)

end RamlSchema
