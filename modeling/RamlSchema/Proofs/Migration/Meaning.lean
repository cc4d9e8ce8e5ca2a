import RamlSchema.Proofs.Migration.Upgrade
import RamlSchema.Proofs.Schema.Meaning
import RamlSchema.Proofs.Validity

/-!
# Migration preserves meaning

A schema of draft 04 and what it is migrated to accept the same values, the one read by draft 04 and
the other by draft 06. The tests under the keywords of a schema are the same before and after, because
the schemas there are smaller. What is left is the keywords of one schema, and there each rewrite has
to be exact: a schema can stand under `not`, where accepting too much and too little are one fault.
-/

namespace RamlSchema

namespace Migration

open Members Schema

variable {r : Reading} {ms : Members}

/-- The keywords that migration looks for schemas in and no draft-04 reading does. -/
def unreadKeywords : List String :=
  ["definitions", "contains", "propertyNames"]

/-- The position that goes with a form. -/
def positionOf : Form → Position
  | .data => .data
  | .schema => .schema
  | .schemas => .schemas
  | .named | .dependencies => .named

theorem position_eq_positionOf {k : String} (hk : k ∉ unreadKeywords) :
    position k = positionOf (formOf k) := by
  unfold formOf
  split
  all_goals first
    | decide
    | simp_all [positionOf, position, schemaKeywords, schemasKeywords, namedKeywords,
        unreadKeywords]

theorem dependencyTest_migrateSchema {s : Json}
    (ih : accepts r .draft06 (migrateSchema s) = accepts r .draft04 s) :
    dependencyTest r .draft06 (migrateSchema s) = dependencyTest r .draft04 s := by
  cases s with
  | array names => rfl
  | object ms =>
      rw [migrateSchema_object] at ih ⊢
      exact ih
  | _ => exact ih

theorem argument_migrateUnder {k : String} {s : Json} (hk : k ∉ unreadKeywords)
    (ih : ∀ w ∈ schemasUnder k s,
      accepts r .draft06 (migrateSchema w) = accepts r .draft04 w) :
    argument r .draft06 k (migrateUnder k s) = argument r .draft04 k s := by
  have hposition := position_eq_positionOf hk
  cases hform : formOf k with
  | data =>
      rw [hform, positionOf] at hposition
      rw [migrateUnder_data hposition]
      simp only [argument, hform]
  | schema =>
      rw [hform, positionOf] at hposition
      simp only [schemasUnder, hposition, List.mem_singleton, forall_eq] at ih
      simp only [argument, migrateUnder, hform, hposition, ih]
  | schemas =>
      rw [hform, positionOf] at hposition
      cases s with
      | array list =>
          simp only [schemasUnder, hposition] at ih
          simp only [argument, migrateUnder, hform, hposition, List.map_map]
          exact congrArg Argument.tests (List.map_congr_left ih)
      | object ms =>
          simp only [schemasUnder, hposition, List.mem_singleton, forall_eq] at ih
          rw [migrateSchema_object] at ih
          simp only [argument, migrateUnder, hform, hposition, migrateSchema_object, ih]
      | _ =>
          simp only [argument, migrateUnder, hform, hposition, migrateSchema]
          rfl
  | named =>
      rw [hform, positionOf] at hposition
      cases s with
      | object table =>
          simp only [schemasUnder, hposition, List.forall_mem_map] at ih
          simp only [argument, migrateUnder, hform, hposition, mapValues, List.map_map]
          refine congrArg Argument.named (List.map_congr_left fun m hm => ?_)
          exact congrArg (Prod.mk m.1) (ih m hm)
      | _ => simp only [argument, migrateUnder, hform, hposition]
  | dependencies =>
      rw [hform, positionOf] at hposition
      cases s with
      | object table =>
          simp only [schemasUnder, hposition, List.forall_mem_map] at ih
          simp only [argument, migrateUnder, hform, hposition, mapValues, List.map_map]
          refine congrArg Argument.named (List.map_congr_left fun m hm => ?_)
          exact congrArg (Prod.mk m.1) (dependencyTest_migrateSchema (ih m hm))
      | _ => simp only [argument, migrateUnder, hform, hposition]

/-! ### The rewrites -/

/-- A constant asks what the only allowed value did. -/
theorem EnumLookups.choice_eq {before after : Members} (h : EnumLookups before after)
    (hfree : find? "const" before = none) (v : Json) :
    (choiceHolds r ((find? "enum" after).map .data) v &&
        constantHolds r ((find? "const" after).map .data) .draft06 v) =
      choiceHolds r ((find? "enum" before).map .data) v := by
  cases h with
  | kept henum hconst _ =>
      rw [henum, hconst, hfree]
      exact Bool.and_true _
  | collapsed w _ hold _ henum hconst =>
      rw [henum, hconst, hold]
      simp [choiceHolds, constantHolds]

/-- A bound asks what it did together with its flag. -/
theorem BoundLookups.bound_eq {flag bound : String} {before after : Members}
    (h : BoundLookups flag bound before after) (hflag : ∀ v, find? flag before = some v → IsFlag v)
    (within strictlyWithin : Number → Number → Bool) (v : Json) :
    boundHolds within strictlyWithin ((find? bound after).map .data)
        ((find? flag after).map .data) .draft06 v =
      boundHolds within strictlyWithin ((find? bound before).map .data)
        ((find? flag before).map .data) .draft04 v := by
  have hnothing : ∀ limit, keepsTo limit none v = true := by
    intro limit
    cases v <;> rfl
  cases h with
  | kept hf hb hwhy =>
      have hnone : find? flag before = none := by
        cases hfind : find? flag before with
        | none => rfl
        | some w =>
            obtain ⟨b, rfl⟩ := hflag w hfind
            exact absurd hfind (hwhy b)
      rw [hf, hb, hnone]
      simp [boundHolds, isSet, hnothing]
  | lifted n hold hnumber hf hb =>
      rw [hf, hb, hold, hnumber]
      simp [boundHolds, isSet, hnothing]
  | dropped b hold hwhy hf hb =>
      rw [hf, hb, hold]
      cases b with
      | false => simp [boundHolds, isSet, hnothing]
      | true =>
          have hlimit : ∀ limit, keepsTo limit ((find? bound before).map .data) v = true := by
            intro limit
            have hnumber := hwhy rfl
            cases v with
            | number x =>
                cases hfind : find? bound before with
                | none => rfl
                | some w =>
                    cases w with
                    | number n => exact absurd hfind (hnumber n)
                    | _ => rfl
            | _ => rfl
          simp [boundHolds, isSet, hnothing, hlimit]

/-! ### The keywords of one schema -/

/-- A schema that has no keyword of a later draft in a form that would mean something else there. -/
structure Plain (ms : Members) : Prop where
  flags : ∀ k ∈ ["exclusiveMaximum", "exclusiveMinimum"], ∀ v, find? k ms = some v → IsFlag v
  noLaterKeyword : ∀ k ∈ ["const", "contains", "propertyNames"], k ∉ names ms

theorem Plain.find?_eq_none (hplain : Plain ms) {k : String}
    (hk : k ∈ ["const", "contains", "propertyNames"]) : find? k ms = none :=
  find?_eq_none_iff.mpr (hplain.noLaterKeyword k hk)

theorem furtherMembers_migrated (hplain : Plain ms) :
    furtherMembers (migrateKeywords (mapValues migrateUnder ms)) = furtherMembers ms := by
  have hposition : ∀ k, isFurther k = true → k ∉ unreadKeywords → position k = .data := by
    intro k hk hunread
    rw [isFurther, decide_eq_true_iff] at hk
    rw [position_eq_positionOf hunread]
    unfold formOf
    split <;> simp_all [positionOf, commonKeywords]
  have hkeywords : ∀ k ∈ rewrittenNames, isFurther k = false := by decide
  unfold furtherMembers
  rw [filter_migrateKeywords hkeywords]
  refine filter_mapValues fun m hm hk => migrateUnder_data (hposition _ hk fun hunread => ?_) _
  simp only [unreadKeywords, List.mem_cons, List.not_mem_nil, or_false] at hunread
  rcases hunread with hdefinitions | hlater
  · rw [hdefinitions] at hk
    exact absurd hk (by decide)
  · have hname : m.1 ∉ names ms := hplain.noLaterKeyword m.1 (by simp [hlater])
    exact hname (mem_names_of_mem hm)

theorem accepts_migrateSchema_object (hnodup : (names ms).Nodup) (hplain : Plain ms)
    (ih : ∀ m ∈ ms, ∀ w ∈ schemasUnder m.1 m.2,
      accepts r .draft06 (migrateSchema w) = accepts r .draft04 w) :
    accepts r .draft06 (migrateSchema (.object ms)) = accepts r .draft04 (.object ms) := by
  have hnodup' : (names (mapValues migrateUnder ms)).Nodup := nodup_names_mapValues hnodup
  have hcommon : ∀ k ∈ commonKeywords,
      argumentUnder r .draft06 (migrateKeywords (mapValues migrateUnder ms)) k =
        argumentUnder r .draft04 ms k := by
    intro k hk
    have hkept : ∀ k ∈ commonKeywords, k ∉ rewrittenNames ∧ k ∉ unreadKeywords := by decide
    obtain ⟨hrewritten, hunread⟩ := hkept k hk
    rw [argumentUnder_eq, argumentUnder_eq, find?_migrateKeywords hrewritten, find?_mapValues]
    cases hfind : find? k ms with
    | none => rfl
    | some s =>
        have hargument := argument_migrateUnder hunread (ih _ (mem_of_find? hfind))
        rw [Option.map_some, Option.map_some, Option.map_some, hargument]
  have hdata : ∀ k ∈ draftKeywords, ∀ d ms, argumentUnder r d ms k = (find? k ms).map .data := by
    have hform : ∀ k ∈ draftKeywords, formOf k = .data := by decide
    exact fun k hk d ms => argumentUnder_data (hform k hk) ms
  have hsame : ∀ k ∈ draftKeywords, find? k (mapValues migrateUnder ms) = find? k ms := by
    have hposition : ∀ k ∈ draftKeywords, position k = .data := by decide
    exact fun k hk => find?_mapValues_migrateUnder (hposition k hk) ms
  have hchoice : ∀ v,
      (choiceHolds r (argumentUnder r .draft06 (migrateKeywords (mapValues migrateUnder ms)) "enum")
          v &&
        constantHolds r
          (argumentUnder r .draft06 (migrateKeywords (mapValues migrateUnder ms)) "const")
          .draft06 v) =
      (choiceHolds r (argumentUnder r .draft04 ms "enum") v &&
        constantHolds r (argumentUnder r .draft04 ms "const") .draft04 v) := by
    intro v
    have hfree : find? "const" (mapValues migrateUnder ms) = none :=
      (hsame _ (by decide)).trans (hplain.find?_eq_none (by decide))
    simp only [hdata "enum" (by decide), hdata "const" (by decide)]
    rw [(migrateKeywords_enum hnodup').choice_eq hfree, hsame _ (by decide)]
    exact (Bool.and_true _).symm
  have hflag : ∀ k ∈ ["exclusiveMaximum", "exclusiveMinimum"], ∀ v,
      find? k (mapValues migrateUnder ms) = some v → IsFlag v := by
    intro k hk v hv
    have hdraft : ∀ k ∈ ["exclusiveMaximum", "exclusiveMinimum"], k ∈ draftKeywords := by decide
    exact hplain.flags k hk v (hsame k (hdraft k hk) ▸ hv)
  funext v
  rw [migrateSchema_object, accepts_object, accepts_object, furtherMembers_migrated hplain]
  refine congrArg (· && _) (congrFun (holds_congr hcommon hchoice fun within strictly v => ?_) v)
  simp only [hdata "maximum" (by decide), hdata "exclusiveMaximum" (by decide),
    hdata "minimum" (by decide), hdata "exclusiveMinimum" (by decide)]
  rw [(migrateKeywords_maximum hnodup').bound_eq (hflag _ (by decide)),
    (migrateKeywords_minimum hnodup').bound_eq (hflag _ (by decide)), hsame _ (by decide),
    hsame _ (by decide), hsame _ (by decide), hsame _ (by decide)]
  exact ⟨rfl, rfl⟩

/-! ### Whole schemas -/

theorem accepts_migrateSchema {s : Json} (hnames : s.HasDistinctNames)
    (hplain : ∀ ms, HasSchema s (.object ms) → Plain ms) :
    accepts r .draft06 (migrateSchema s) = accepts r .draft04 s := by
  induction s using schemaInduction with
  | other s hobject =>
      rw [migrateSchema_of_not_object hobject]
      cases s with
      | object ms => exact absurd hobject (by simp [Json.isObject])
      | _ => rfl
  | object ms ih =>
      obtain ⟨hnodup, hvalues⟩ := Json.hasDistinctNames_object.mp hnames
      refine accepts_migrateSchema_object hnodup (hplain ms (.self _)) fun m hm w hw => ?_
      have hdistinct := hasDistinctNames_of_mem_schemasUnder (hvalues m hm) hw
      exact ih m hm w hw hdistinct fun ms' h => hplain ms' (.under hm hw h)

/-- The keywords that a schema of draft 04 may have for something of its own, while a later draft
reads them, and references, which no single schema says the meaning of. -/
def foreignKeywords : List String :=
  ["$ref", "const", "$id", "contains", "propertyNames"]

/-- In a schema of draft 04 a keyword for an exclusive bound has a flag. -/
theorem plain_of_isSchema (hs : IsSchema .draft04 (.object ms))
    (hfree : ∀ k ∈ foreignKeywords, k ∉ names ms) : Plain ms := by
  constructor
  · intro k hk v hfind
    have hfits := (isSchema_object.mp hs).2 _ (mem_of_find? hfind)
    simp only [List.mem_cons, List.not_mem_nil, or_false] at hk
    rcases hk with rfl | rfl <;> exact hfits
  · have hlater : ∀ k ∈ ["const", "contains", "propertyNames"], k ∈ foreignKeywords := by decide
    exact fun k hk => hfree k (hlater k hk)

end Migration

open Migration Schema

/-- **Migration preserves meaning.** A schema of draft 04 accepts by draft 04 what it accepts by
draft 06 once it is migrated. -/
theorem accepts_migrate (r : Reading) {s : Json} (hnames : s.HasDistinctNames)
    (hvalid : validateAs .draft04 s = .ok ())
    (hfree : ∀ ms : Members, HasSchema s (.object ms) → ∀ k ∈ foreignKeywords, k ∉ ms.names)
    {d : Draft} (hd : d ≠ .draft04) (v : Json) :
    accepts r .draft06 (migrate s d) v = accepts r .draft04 s v := by
  have hs := (validateAs_eq_ok_iff .draft04 hnames).mp hvalid
  have hplain : ∀ ms, HasSchema s (.object ms) → Plain ms := by
    intro ms h
    have hschema : IsSchema .draft04 (.object ms) := by
      refine isSchema_of_hasSchema h rfl hs fun ms' h' k hk => hfree ms' h' k ?_
      exact List.mem_of_mem_drop (i := 3) hk
    exact plain_of_isSchema hschema (hfree ms h)
  have hwalk : accepts r .draft06 (migrateSchema s) = accepts r .draft04 s :=
    accepts_migrateSchema hnames hplain
  obtain ⟨ms, rfl⟩ := isSchema_draft04 hs
  have hdeclare : accepts r .draft06 (migrate (.object ms) d) =
      accepts r .draft06 (migrateSchema (.object ms)) := by
    rw [migrate_object hd, migrateSchema_object]
    exact accepts_put (by decide) _ _
  rw [hdeclare, hwalk]

def occursIn (part : List Char) : List Char → Bool
  | [] => part.isEmpty
  | c :: cs => (afterStart? part (c :: cs)).isSome || occursIn part cs

/-- A reading in which all patterns are plain text and no further keyword asks anything. -/
def plainReading : Reading where
  isOfKind name v :=
    match v with
    | .number n => name = "number" || (name = "integer" && n.isIntegerLiteral)
    | v => v.typeName = name
  same := Json.sameValue false
  matchesName pattern name := occursIn pattern.toList name.toList
  further _ _ := true

/-- Anything but a level below three and, under a name with an x, a switch that is on. -/
def switchSchema : Json :=
  .object [
    ("id", .string "switch"),
    ("not", .object [
      ("properties", .object [
        ("level", .object [
          ("maximum", .number (.integer 3)),
          ("exclusiveMaximum", .boolean true)])]),
      ("patternProperties", .object [
        ("x", .object [
          ("type", .string "string"),
          ("enum", .array [.string "on"])])])])]

theorem objects_of_switchSchema {ms : Members} (h : HasSchema switchSchema (.object ms)) :
    ms = [("id", .string "switch"), ("not", .object [
        ("properties", .object [
          ("level", .object [
            ("maximum", .number (.integer 3)),
            ("exclusiveMaximum", .boolean true)])]),
        ("patternProperties", .object [
          ("x", .object [("type", .string "string"), ("enum", .array [.string "on"])])])])] ∨
      ms = [("properties", .object [
          ("level", .object [
            ("maximum", .number (.integer 3)),
            ("exclusiveMaximum", .boolean true)])]),
        ("patternProperties", .object [
          ("x", .object [("type", .string "string"), ("enum", .array [.string "on"])])])] ∨
      ms = [("maximum", .number (.integer 3)), ("exclusiveMaximum", .boolean true)] ∨
      ms = [("type", .string "string"), ("enum", .array [.string "on"])] := by
  simpa [switchSchema, hasSubschema_object, hasSchema_iff, schemasUnder, position, schemaKeywords,
    schemasKeywords, namedKeywords] using h

/-- The bound itself is accepted, as the level is not below it. -/
theorem accepts_migrate_switchSchema :
    accepts plainReading .draft06 (migrate switchSchema .draft07)
      (.object [("level", .number (.integer 3)), ("xa", .string "on")]) = true := by
  have hnames : switchSchema.HasDistinctNames := by
    simp [switchSchema, Json.HasDistinctNames, Json.ItemsHaveDistinctNames,
      Json.MembersHaveDistinctNames]
  have hvalid : validateAs .draft04 switchSchema = .ok () := by rfl
  have hfree : ∀ ms : Members, HasSchema switchSchema (.object ms) →
      ∀ k ∈ foreignKeywords, k ∉ ms.names := by
    intro ms h
    rcases objects_of_switchSchema h with rfl | rfl | rfl | rfl <;> decide
  rw [accepts_migrate plainReading hnames hvalid hfree (by decide)]
  rfl

end RamlSchema
