import RamlSchema.Proofs.Fix.Names

/-!
# What becomes of a file

A file is made a binary string by the first rule, and the two later rules go over the result. They do
not touch what was written: the names `type` and `media` carry no mark and are no examples, so only a
member that comes to have one of these names could replace what stands there. The media types were
declared under a marked name, which the first rule takes out; so no list of them turns up under the name
without the mark.
-/

namespace RamlSchema

open Members

namespace VendorName

theorem eq_or_eq_of_unmark_eq {name k : String} (h : unmark name = k) :
    name = k ∨ name = String.ofList (mark ++ k.toList) := by
  by_cases hmarked : isMarked name = true
  · right
    rw [← h, ← toList_of_isMarked hmarked, String.ofList_toList]
  · left
    rw [← h, unmark_of_not_isMarked (Bool.eq_false_iff.mpr hmarked)]

theorem find?_unmarkAll_of_not_mem {ms : Members} (hnodup : (names ms).Nodup) {k : String}
    (hk : isMarked k = false) (hmarked : String.ofList (mark ++ k.toList) ∉ names ms) :
    find? k (unmarkAll ms) = find? k ms := by
  have hsame : ∀ name ∈ names ms, unmark name = k → name = k := by
    intro name hname hunmark
    rcases eq_or_eq_of_unmark_eq hunmark with heq | heq
    · exact heq
    · exact absurd (heq ▸ hname) hmarked
  ext v
  rw [find?_unmarkAll, find?_eq_some_iff hnodup]
  constructor
  · rintro ⟨name, hlasts, hname⟩
    have heq : name = k := hsame name (mem_names_of_mem hlasts.mem) hname
    exact heq ▸ hlasts.mem
  · intro hmem
    obtain ⟨before, after, rfl⟩ := List.mem_iff_append.mp hmem
    refine ⟨k, ⟨before, after, rfl, ?_⟩, unmark_of_not_isMarked hk⟩
    intro m hm hunmark
    rw [unmark_of_not_isMarked hk] at hunmark
    have hname : m.1 ∈ names after := mem_names_of_mem hm
    have heq : m.1 = k := hsame m.1 (mem_names_of_mem
      (List.mem_append_right _ (List.mem_cons_of_mem _ hm))) hunmark
    rw [names, List.map_append, List.map_cons, List.nodup_append, List.nodup_cons] at hnodup
    exact hnodup.2.1.1 (heq ▸ hname)

end VendorName

namespace FileType

open VendorName

/-- What stands under a name that a file gets when it becomes a binary string is still there when marks
have been taken off, if the object does not have this name with a mark. -/
theorem find?_unmarkAll_step {ms : Members} (hnodup : (names ms).Nodup) {k : String}
    (hown : k ∈ ownNames) (hmarked : String.ofList (mark ++ k.toList) ∉ names ms) :
    find? k (unmarkAll (rule.step ms)) = find? k (rule.step ms) := by
  have hplain : isMarked k = false := Bool.eq_false_iff.mpr (not_isMarked_of_mem_ownNames hown)
  apply find?_unmarkAll_of_not_mem (nodup_names_step hnodup) hplain
  intro hmem
  rcases mem_ownNames_or_mem_names hmem with hother | hmem
  · refine not_isMarked_of_mem_ownNames hother (isMarked_iff.mpr ⟨k.toList, ?_⟩)
    rw [String.toList_ofList]
  · exact hmarked hmem

/-- The list of media types is used up, and no other name is lost or comes in with it. -/
theorem mem_names_unmarkAll_describe {ms : Members} (hnodup : (names ms).Nodup)
    (hfile : isFile ms = true) :
    "fileTypes" ∈ names (unmarkAll (rule.step ms)) ↔ "fileTypes" ∈ names ms := by
  have hused : mediaTypesName ∉ names (rule.step ms) := by
    have hstep : rule.step ms = describe ms := Rule.step_of_applies hfile
    rw [hstep, ← find?_eq_none_iff, describe, find?_put_of_ne (by decide),
      find?_put_of_ne (by decide), find?_remove_self hnodup]
  rw [mem_names_unmarkAll, ← mem_names_step (k := "fileTypes") (by decide)]
  constructor
  · rintro ⟨name, hname, hunmark⟩
    rcases eq_or_eq_of_unmark_eq hunmark with rfl | rfl
    · exact hname
    · exact absurd hname hused
  · exact fun hmem => ⟨"fileTypes", hmem, by decide⟩

theorem fixSchema_media {declared : Option Json}
    (htexts : ∀ items, declared = some (.array items) → ∀ t ∈ items, ∃ s, t = .string s) :
    fixSchema (media declared) = media declared := by
  have halternatives : alternatives (declared.map fixSchema) = alternatives declared := by
    cases declared with
    | none => rfl
    | some v =>
        rw [Option.map_some]
        cases v with
        | array items =>
            have hitems : items.map fixSchema = items := by
              refine (List.map_congr_left fun t ht => ?_).trans (List.map_id items)
              obtain ⟨s, rfl⟩ := htexts items rfl t ht
              exact walks_fixSchema.string s
            rw [fixSchema_array, hitems]
        | _ =>
            rw [alternatives_of_not_array (by rw [walks_fixSchema.kind]; simp [Json.typeName])]
            rfl
  rw [walks_fixSchema.media, media, halternatives, media]

end FileType

open FileType

/-- **The media types that are declared for a file are told in the fixed schema.** The file becomes a
string with a description of its media, whatever else it has: binary, and of one of the declared types,
in their order, if there are any. The declaration is used up. -/
theorem exists_fixSchema_file {ms : Members} (hnodup : (names ms).Nodup)
    (hfile : find? "type" ms = some (.string "file")) (htype : "x-amf-type" ∉ names ms)
    (hmedia : "x-amf-media" ∉ names ms)
    (htexts : ∀ items, find? "x-amf-fileTypes" ms = some (.array items) →
      ∀ t ∈ items, ∃ s, t = .string s) :
    ∃ ms' : Members, fixSchema (.object ms) = .object ms' ∧
      find? "type" ms' = some (.string "string") ∧
      (∀ t ts, find? "x-amf-fileTypes" ms = some (.array (t :: ts)) →
        find? "media" ms' = some (.object [("binaryEncoding", .string "binary"),
          ("anyOf", .array ((t :: ts).map fun t => .object [("mediaType", t)]))])) ∧
      ((∀ t ts, find? "x-amf-fileTypes" ms ≠ some (.array (t :: ts))) →
        find? "media" ms' = some (.object [("binaryEncoding", .string "binary")])) ∧
      ("fileTypes" ∈ names ms' ↔ "fileTypes" ∈ names ms) := by
  have hstep : rule.step ms = describe ms := Rule.step_of_applies (isFile_iff.mpr hfile)
  have hkept : ∀ k v, k ∈ ["type", "media"] → String.ofList (VendorName.mark ++ k.toList) ∉ names ms →
      find? k (describe ms) = some v → fixSchema v = v →
      find? k (mapValues (fun k v => ExampleList.listed k (fixSchema v))
        (VendorName.unmarkAll (rule.step ms))) = some v := by
    intro k v hk hmarked hfind hfixed
    have hown : ∀ k ∈ ["type", "media"], k ∈ ownNames ∧ k ≠ "examples" := by decide
    rw [find?_mapValues, find?_unmarkAll_step hnodup (hown k hk).1 hmarked, hstep, hfind,
      Option.map_some, hfixed, ExampleList.listed_eq_self (.inl (hown k hk).2)]
  have hdescribed : find? "media" (describe ms) = some (media (find? "x-amf-fileTypes" ms)) := by
    rw [describe, find?_put_self]
    rfl
  have hmedia' := hkept "media" _ (by decide) hmedia hdescribed (fixSchema_media htexts)
  refine ⟨_, fixSchema_object_of_nodup hnodup, ?_, ?_, ?_, ?_⟩
  · refine hkept "type" _ (by decide) htype ?_ (walks_fixSchema.string _)
    rw [describe, find?_put_of_ne (by decide), find?_put_self]
  · intro t ts hdeclared
    rw [hmedia', hdeclared]
    rfl
  · intro hnone
    have hempty : alternatives (find? "x-amf-fileTypes" ms) = [] := by
      unfold alternatives
      split
      · next t ts hdeclared => exact absurd hdeclared (hnone t ts)
      · rfl
    rw [hmedia', media, hempty]
  · rw [names_mapValues]
    exact mem_names_unmarkAll_describe hnodup (isFile_iff.mpr hfile)

/-- A picture in one of two formats. It has a description of its media already, one with two marks, and
a mapping of examples under a marked name. -/
def pictureMembers : Members :=
  [("x-amf-fileTypes", .array [.string "image/png", .string "image/gif"]),
    ("media", .object [("binaryEncoding", .string "base64")]),
    ("x-amf-x-amf-media", .null),
    ("type", .string "file"),
    ("x-amf-examples", .object [("small", .string "R0lGOD")])]

theorem exists_fixSchema_file_pictureMembers :
    (names pictureMembers).Nodup ∧ find? "type" pictureMembers = some (.string "file") ∧
      "x-amf-type" ∉ names pictureMembers ∧ "x-amf-media" ∉ names pictureMembers ∧
      ∃ ms' : Members, fixSchema (.object pictureMembers) = .object ms' ∧
        find? "type" ms' = some (.string "string") ∧
        find? "media" ms' = some (.object [("binaryEncoding", .string "binary"),
          ("anyOf", .array [.object [("mediaType", .string "image/png")],
            .object [("mediaType", .string "image/gif")]])]) ∧
        "fileTypes" ∉ names ms' := by
  have hnodup : (names pictureMembers).Nodup := by decide
  have hfile : find? "type" pictureMembers = some (.string "file") := by decide
  have htype : "x-amf-type" ∉ names pictureMembers := by decide
  have hmedia : "x-amf-media" ∉ names pictureMembers := by decide
  have hdeclared : find? "x-amf-fileTypes" pictureMembers =
      some (.array [.string "image/png", .string "image/gif"]) := by decide
  have htexts : ∀ items, find? "x-amf-fileTypes" pictureMembers = some (.array items) →
      ∀ t ∈ items, ∃ s, t = .string s := by
    intro items hitems
    rw [hdeclared] at hitems
    obtain rfl := Json.array.inj (Option.some.inj hitems)
    simp
  obtain ⟨ms', hfix, htype', hmedia', -, htypes⟩ :=
    exists_fixSchema_file hnodup hfile htype hmedia htexts
  refine ⟨hnodup, hfile, htype, hmedia, ms', hfix, htype', hmedia' _ _ hdeclared, ?_⟩
  rw [htypes]
  decide

end RamlSchema
