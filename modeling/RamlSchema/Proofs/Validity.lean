import RamlSchema.MetaSchema.Validity
import RamlSchema.Proofs.MetaSchema.Drafts

/-!
# Valid schemas

The check of a schema against the meta-schema of its draft passes for the schemas of that draft and
for nothing else, and it never runs out of steps.
-/

namespace RamlSchema

open Schema

namespace MetaSchema

/-- If a table decides the shapes under its keywords, and nothing is asked under other names, then
the check of the table decides that every member fits. -/
theorem decides_members {wholeFloats : Bool} {c : Check} {place : List Step} {d : Draft}
    {named : List (String × Node)} {ms : Members} (hnodup : ms.names.Nodup)
    (htable : ∀ entry ∈ named, ∀ w, Members.find? entry.1 ms = some w → ∀ place,
      Decides (c entry.2 place w) (Fits d (shapeOf d entry.1) w))
    (hother : ∀ keyword, keyword ∉ named.map (·.1) → shapeOf d keyword = .data fun _ => True) :
    Decides (checkKeyword wholeFloats c place (.object ms) (.properties named))
      (∀ m ∈ ms, Fits d (shapeOf d m.1) m.2) := by
  refine (decides_properties (p := fun k w => Fits d (shapeOf d k) w)
    fun entry hentry w hfind => htable entry hentry w hfind _).congr ?_
  rw [Members.forall_mem_iff_forall_find? (p := fun k w => Fits d (shapeOf d k) w) hnodup]
  constructor
  · intro h k w hfind
    by_cases hk : k ∈ named.map (·.1)
    · obtain ⟨entry, hentry, rfl⟩ := List.mem_map.mp hk
      exact h entry hentry w hfind
    · rw [hother k hk]
      trivial
  · intro h entry _ w hfind
    exact h entry.1 w hfind

theorem tableDecides_of_find? {m : MetaSchema} {d : Draft} {named : List (String × Node)}
    {ms : Members} {n : Nat} (hnames : (Json.object ms).HasDistinctNames)
    (hn : 4 * (Json.object ms).depth ≤ n)
    (htable : ∀ (w : Json) (k : Nat), w.HasDistinctNames → w.depth < (Json.object ms).depth →
      4 * (w.depth + 1) ≤ k → TableDecides m d (k + 3) w named) :
    ∀ entry ∈ named, ∀ w, Members.find? entry.1 ms = some w → ∀ place,
      Decides (check m (n + 3) entry.2 place w) (Fits d (shapeOf d entry.1) w) := by
  intro entry hentry w hfind place
  have hmem := Members.mem_of_find? hfind
  have hdepth : w.depth < (Json.object ms).depth := Json.depth_lt_of_mem_object hmem
  have hwNames := (Json.hasDistinctNames_object.mp hnames).2 _ hmem
  exact htable w n hwNames hdepth (by omega) entry hentry place

theorem decidesBelow04 (bound : Nat) : DecidesBelow Draft04.metaSchema .draft04 bound := by
  induction bound with
  | zero => exact fun v _ hdepth => absurd hdepth (Nat.not_lt_zero _)
  | succ bound ih =>
      intro v hnames hdepth place n hn
      obtain ⟨k, rfl⟩ : ∃ k, n = k + 4 := ⟨n - 4, by omega⟩
      refine decides_keywords_type ?_ fun hobject => ?_
      · exact fun h => isOfKind_object.mpr (isSchema_draft04 h)
      obtain ⟨ms, rfl⟩ := isOfKind_object.mp hobject
      have htable := tableDecides_of_find? (n := k) hnames (by omega) fun w k hwNames hw hk =>
        tableDecides_properties04 reads04 ih hwNames (by omega) hk rfl
      have hflags : Decides (checkKeyword false (check Draft04.metaSchema (k + 3)) place
          (.object ms) (.dependencies
            [("exclusiveMaximum", ["maximum"]), ("exclusiveMinimum", ["minimum"])]))
          (FlagsHaveBounds ms) := by
        refine (@decides_dependencies _ _ place [("exclusiveMaximum", "maximum"),
          ("exclusiveMinimum", "minimum")] ms).congr ?_
        simp [FlagsHaveBounds]
      refine (decides_inOrder_cons
        (decides_members (Json.hasDistinctNames_object.mp hnames).1 htable
          fun _ => shapeOf_not_mem_properties04) fun _ =>
        decides_inOrder_singleton hflags).congr ?_
      rw [isSchema_object, and_comm]
      simp

/-- Drafts 06 and 07 ask the same of a schema beside their tables: to be an object or a flag. -/
theorem decides_laterRoot {m : MetaSchema} {d : Draft} (hd : d ≠ .draft04) {n : Nat}
    {place : List Step} {v : Json} {named : List (String × Node)}
    (hmembers : ∀ ms : Members, v = .object ms →
      Decides (checkKeyword m.wholeFloats (check m n) place (.object ms) (.properties named))
        (∀ m ∈ ms, Fits d (shapeOf d m.1) m.2)) :
    Decides (check m (n + 1) (Later.root named) place v) (IsSchema d v) := by
  have htype : Decides (checkKeyword m.wholeFloats (check m n) place v (.type [.object, .boolean]))
      ((∃ ms : Members, v = .object ms) ∨ IsFlag v) := by
    refine (decides_require _ place v _).congr ?_
    rw [← @isOfKind_object m.wholeFloats, ← @isOfKind_boolean m.wholeFloats]
    simp
  have hproperties : (∃ ms : Members, v = .object ms) ∨ IsFlag v → Decides
      (inOrder (checkKeyword m.wholeFloats (check m n) place v) [.properties named])
      (IsSchema d v) := by
    intro h
    rcases h with ⟨ms, rfl⟩ | ⟨b, rfl⟩
    · refine (decides_inOrder_singleton (hmembers ms rfl)).congr ?_
      rw [isSchema_object]
      simp [hd]
    · exact .pass (isSchema_boolean.mpr hd)
  refine (decides_keywords (decides_inOrder_cons htype hproperties)).congr ?_
  rw [and_iff_right_iff_imp]
  intro h
  rcases isSchema_cases h with hobject | ⟨_, hflag⟩
  · exact .inl hobject
  · exact .inr hflag

theorem decidesBelow06 (bound : Nat) : DecidesBelow Later.metaSchema06 .draft06 bound := by
  induction bound with
  | zero => exact fun v _ hdepth => absurd hdepth (Nat.not_lt_zero _)
  | succ bound ih =>
      intro v hnames hdepth place n hn
      obtain ⟨k, rfl⟩ : ∃ k, n = k + 4 := ⟨n - 4, by omega⟩
      refine decides_laterRoot (by simp) fun ms hv => ?_
      subst hv
      exact decides_members (Json.hasDistinctNames_object.mp hnames).1
        (tableDecides_of_find? (n := k) hnames (by omega) fun w k hwNames hw hk =>
          tableDecides_properties06 reads06 ih hwNames (by omega) hk rfl)
        fun _ => shapeOf_not_mem_properties06

theorem decidesBelow07 (bound : Nat) : DecidesBelow Later.metaSchema07 .draft07 bound := by
  induction bound with
  | zero => exact fun v _ hdepth => absurd hdepth (Nat.not_lt_zero _)
  | succ bound ih =>
      intro v hnames hdepth place n hn
      obtain ⟨k, rfl⟩ : ∃ k, n = k + 4 := ⟨n - 4, by omega⟩
      refine decides_laterRoot (by simp) fun ms hv => ?_
      subst hv
      exact decides_members (Json.hasDistinctNames_object.mp hnames).1
        (tableDecides_of_find? (n := k) hnames (by omega) fun w k hwNames hw hk =>
          tableDecides_properties07 reads07 ih hwNames (by omega) hk rfl)
        fun _ => shapeOf_not_mem_properties07

/-- A check with four steps for each level of the value decides what a schema is. -/
theorem decides_metaSchema (d : Draft) {v : Json} (hnames : v.HasDistinctNames) {n : Nat}
    (hn : stepsFor v ≤ n) (place : List Step) :
    Decides (check d.metaSchema n (d.metaSchema.define .root) place v) (IsSchema d v) := by
  cases d with
  | draft04 => exact decidesBelow04 _ v hnames (Nat.lt_succ_self _) place n hn
  | draft06 => exact decidesBelow06 _ v hnames (Nat.lt_succ_self _) place n hn
  | draft07 => exact decidesBelow07 _ v hnames (Nat.lt_succ_self _) place n hn

end MetaSchema

theorem verdict_decides (d : Draft) {v : Json} (hnames : v.HasDistinctNames) :
    MetaSchema.Decides (d.metaSchema.verdict v) (IsSchema d v) :=
  MetaSchema.decides_metaSchema d hnames (Nat.le_refl _) []

theorem verdict_ne_outOfSteps (d : Draft) {v : Json} (hnames : v.HasDistinctNames) :
    d.metaSchema.verdict v ≠ .error .outOfSteps :=
  (verdict_decides d hnames).ne_outOfSteps

theorem validateAs_eq_ok_iff (d : Draft) {v : Json} (hnames : v.HasDistinctNames) :
    validateAs d v = .ok () ↔ IsSchema d v := by
  have hverdict := verdict_decides d hnames
  rw [validateAs]
  generalize d.metaSchema.verdict v = c at hverdict
  cases hverdict with
  | pass h => simp [h]
  | violation w h => simp [h]

theorem validate_eq_ok_iff_validateAs (v : Json) :
    validate v = .ok () ↔ ∃ d, declaredDraft v = .ok d ∧ validateAs d v = .ok () := by
  rw [validate]
  cases declaredDraft v with
  | ok d => simp
  | error e => simp

theorem declaredDraft_eq_ok_iff {v : Json} {d : Draft} :
    declaredDraft v = .ok d ↔ v.member? "$schema" = none ∧ d = .draft04 ∨
      ∃ uri, v.member? "$schema" = some (.string uri) ∧ Draft.ofMetaSchemaUri? uri = some d := by
  rw [declaredDraft]
  cases v.member? "$schema" with
  | none => simp [eq_comm]
  | some w =>
      cases w with
      | string uri => cases hdraft : Draft.ofMetaSchemaUri? uri <;> simp [hdraft]
      | _ => simp

/-- **A schema is valid exactly if it names a draft and is a schema of that draft.** -/
theorem validate_eq_ok_iff {v : Json} (hnames : v.HasDistinctNames) :
    validate v = .ok () ↔ ∃ d, declaredDraft v = .ok d ∧ IsSchema d v := by
  rw [validate_eq_ok_iff_validateAs]
  refine exists_congr fun d => and_congr_right fun _ => ?_
  exact validateAs_eq_ok_iff d hnames

/-- Pairs of a number below three and a text, or of anything. -/
def pairSchema : Json :=
  .object [
    ("$schema", .string "https://json-schema.org/draft-07/schema"),
    ("type", .array [.string "array", .string "null"]),
    ("items", .array [
      .object [("type", .string "number"), ("exclusiveMaximum", .number (.integer 3))],
      .object [("type", .string "string"), ("not", .boolean false)]]),
    ("dependencies", .object [("left", .array []), ("right", .boolean true)])]

theorem isSchema_pairSchema :
    ∃ d, declaredDraft pairSchema = .ok d ∧ IsSchema d pairSchema := by
  have hnames : pairSchema.HasDistinctNames := by
    simp [pairSchema, Json.HasDistinctNames, Json.ItemsHaveDistinctNames,
      Json.MembersHaveDistinctNames]
  have hvalid : validate pairSchema = .ok () := by rfl
  exact (validate_eq_ok_iff hnames).mp hvalid

end RamlSchema
