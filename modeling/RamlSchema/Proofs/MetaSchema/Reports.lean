import RamlSchema.Proofs.MetaSchema.Violations

/-!
# What is reported of an invalid schema

The path and the message of an invalid schema name a value that stands in it: the path by the steps
that lead there, and the message by the text of the value, by a member that it lacks, or by the name
of one that it has.
-/

namespace RamlSchema

open MetaSchema Members

/-- The dotted path has the texts of the steps as they are, whatever the pointer escapes in them. -/
theorem Violation.path_eq (x : Violation) :
    x.path = String.ofList ("data".toList ++ x.steps.flatMap fun s => '.' :: s.text) := by
  rw [path, pointer, Pointer.dataPath_eq, Pointer.map_unescape_tail_splitOn_ofSegments,
    List.flatMap_map]

theorem Offence.compactChars_isPrefix_remark {offence : Offence}
    (h : ∀ name, offence ≠ .missing name) (v : Json) : v.compactChars <+: offence.remark v := by
  unfold remark
  split
  all_goals first
    | exact absurd rfl (h _)
    | simp

/-- What a message says of the value at the end of some steps. It shows this value; or the value
lacks the bound to one of its flags, and the message names the bound; or the value is what draft 07
has under `patternProperties`, and the message shows a name of its members. -/
inductive Reports (d : Draft) (steps : List Step) : Json → String → Prop
  | shows {v : Json} {message : String} (h : v.compact.toList <+: message.toList) :
      Reports d steps v message
  | missesBound {ms : Members} {flag bound : String} (hpair : (flag, bound) ∈ flagBounds)
      (hflag : flag ∈ names ms) (hbound : bound ∉ names ms) :
      Reports d steps (.object ms) ("\"" ++ bound ++ "\" is a required property")
  | showsName {ms : Members} {name message : String} (hd : d = .draft07)
      (hsteps : steps.getLast? = some (.name "patternProperties")) (hname : name ∈ names ms)
      (h : (Json.string name).compact.toList <+: message.toList) :
      Reports d steps (.object ms) message

theorem message_missing {flag bound : String} (hpair : (flag, bound) ∈ flagBounds)
    {place : List Step} {v : Json} :
    Violation.message ⟨place, v, .missing bound⟩ = "\"" ++ bound ++ "\" is a required property" := by
  simp only [flagBounds, List.mem_cons, Prod.mk.injEq, List.not_mem_nil, or_false] at hpair
  rcases hpair with ⟨_, rfl⟩ | ⟨_, rfl⟩ <;> rfl

theorem compact_isPrefix_message {place : List Step} {v : Json} {offence : Offence}
    (h : ∀ name, offence ≠ .missing name) :
    v.compact.toList <+: (Violation.message ⟨place, v, offence⟩).toList := by
  rw [Json.compact, Violation.message, String.toList_ofList, String.toList_ofList]
  exact Offence.compactChars_isPrefix_remark h v

theorem reports_of_concerns {d : Draft} {steps : List Step} {v : Json} {x : Violation}
    (h : Concerns (d == .draft07) steps.reverse v x) : Reports d steps v x.message := by
  cases h with
  | itself h => exact .shows (compact_isPrefix_message h)
  | missing hpair hflag hbound =>
      rw [message_missing hpair]
      exact .missesBound hpair hflag hbound
  | memberName hd hplace hname h =>
      rw [List.head?_reverse] at hplace
      exact .showsName (beq_iff_eq.mp hd) hplace hname (compact_isPrefix_message h)

variable {v : Json} {path message : String}

theorem exists_violation_of_validateAs {d : Draft}
    (h : validateAs d v = .error (.invalid path message)) :
    ∃ x : Violation, d.metaSchema.verdict v = .error (.violation x) ∧ x.path = path ∧
      x.message = message := by
  unfold validateAs at h
  split at h
  · cases h
  · next x hverdict =>
      cases h
      exact ⟨x, hverdict, rfl, rfl⟩
  · cases h

theorem declaredDraft_ne_invalid : declaredDraft v ≠ .error (.invalid path message) := by
  unfold declaredDraft
  repeat' split
  all_goals nofun

/-- **What is reported of an invalid schema points at a value in it.** The path is `data` with the
steps that lead to the value, and the message says something of it. -/
theorem exists_at?_of_validate (hnames : v.HasDistinctNames)
    (h : validate v = .error (.invalid path message)) :
    ∃ d steps w, declaredDraft v = .ok d ∧ v.at? steps = some w ∧
      path = String.ofList ("data".toList ++ steps.flatMap fun s => '.' :: s.text) ∧
      Reports d steps w message := by
  unfold validate at h
  split at h
  · next d hdraft =>
      obtain ⟨x, hverdict, rfl, rfl⟩ := exists_violation_of_validateAs h
      obtain ⟨steps, w, hw, hconcerns⟩ := tellsAbout_check (isKnown_metaSchema d) _ _ false [] v
        (isKnown_metaSchema d .root) nofun hnames x hverdict
      rw [List.append_nil] at hconcerns
      have hsteps : x.steps = steps := by
        rw [Violation.steps, hconcerns.reversedSteps_eq, List.reverse_reverse]
      refine ⟨d, steps, w, hdraft, hw, ?_, reports_of_concerns hconcerns⟩
      rw [x.path_eq, hsteps]
  · next e hdraft =>
      cases h
      exact absurd hdraft declaredDraft_ne_invalid

/-- A property whose name has a slash, with a pattern in it that is none. -/
def brokenPattern : Json :=
  .object [
    ("$schema", .string "http://json-schema.org/draft-07/schema#"),
    ("properties", .object [
      ("a/b", .object [("patternProperties", .object [("(", .boolean true)])])])]

theorem exists_at?_brokenPattern :
    validate brokenPattern =
        .error (.invalid "data.properties.a/b.patternProperties" "\"(\" is not a \"regex\"") ∧
      ∃ d steps w, declaredDraft brokenPattern = .ok d ∧ brokenPattern.at? steps = some w ∧
        "data.properties.a/b.patternProperties" =
          String.ofList ("data".toList ++ steps.flatMap fun s => '.' :: s.text) ∧
        Reports d steps w "\"(\" is not a \"regex\"" := by
  have hnames : brokenPattern.HasDistinctNames := by
    simp [brokenPattern, Json.HasDistinctNames, Json.MembersHaveDistinctNames]
  have hinvalid : validate brokenPattern =
      .error (.invalid "data.properties.a/b.patternProperties" "\"(\" is not a \"regex\"") := by
    rfl
  exact ⟨hinvalid, exists_at?_of_validate hnames hinvalid⟩

end RamlSchema
