import RamlSchema.Conversion
import RamlSchema.Processor.Command
import RamlSchema.Proofs.Fix.Steps
import RamlSchema.Proofs.Json.Reading
import RamlSchema.Proofs.Migration.Validity
import RamlSchema.Proofs.Schema.Inclusion

/-!
# Conversion to drafts 06 and 07

The rewrites of a migration do not look at the draft that is asked for. Only the name of the draft
at the root tells the two results apart, and it stands at the same place in both. So what is a valid
schema of draft 07 is a valid one of draft 06 but for this name, and a processor that answers the
same twice gives the same schema twice.
-/

namespace RamlSchema

open Members Migration Schema

/-- An object that names a draft, with the members before and behind the name. -/
def declaring (before after : Members) (d : Draft) : Json :=
  .object (before ++ ("$schema", .string d.metaSchemaUri) :: after)

theorem migrate_eq_declaring {ms : Members} (hnodup : (names ms).Nodup) :
    ∃ before after : Members, "$schema" ∉ names (before ++ after) ∧
      ∀ d, d ≠ .draft04 → migrate (.object ms) d = declaring before after d := by
  have hnodup' : (names (mapValues migrateUnder ms)).Nodup := nodup_names_mapValues hnodup
  obtain ⟨before, after, hfresh, hput⟩ :=
    exists_put_eq_append (k := "$schema") (nodup_names_migrateKeywords hnodup')
  refine ⟨before, after, hfresh, fun d hd => ?_⟩
  rw [migrate_object hd, hput, declaring]

theorem isObject_migrate (v : Json) (d : Draft) : (migrate v d).isObject = v.isObject := by
  cases v <;> cases d <;> rfl

theorem isSchema_declaring_draft06 {before after : Members}
    (h : IsSchema .draft07 (declaring before after .draft07)) :
    IsSchema .draft06 (declaring before after .draft06) := by
  have h := isSchema_draft06_of_draft07 h
  rw [declaring, isSchema_object, List.forall_mem_append, List.forall_mem_cons] at h ⊢
  obtain ⟨_, hbefore, _, hafter⟩ := h
  refine ⟨fun h => absurd h (by decide), hbefore, ?_, hafter⟩
  exact ⟨_, rfl, isUri_metaSchemaUri .draft06⟩

theorem isObject_of_validate {v : Json} (hnames : v.HasDistinctNames) (h : validate v = .ok ()) :
    v.isObject = true := by
  obtain ⟨d, hd, hvalid⟩ := (validate_eq_ok_iff_validateAs v).mp h
  rw [validateAs_eq_ok_iff d hnames] at hvalid
  rcases isSchema_cases hvalid with ⟨ms, rfl⟩ | ⟨hlater, b, rfl⟩
  · rfl
  · exact absurd (Except.ok.inj hd).symm hlater

theorem validate_migrate_iff_isSchema {d : Draft} (hd : d ≠ .draft04) {ms : Members}
    (hnames : (Json.object ms).HasDistinctNames) :
    validate (migrate (.object ms) d) = .ok () ↔ IsSchema d (migrate (.object ms) d) := by
  have hdeclared := declaredDraft_migrate hd ms
  rw [validate_eq_ok_iff_validateAs, ← validateAs_eq_ok_iff d (hasDistinctNames_migrate hnames d)]
  constructor
  · rintro ⟨e, he, hvalid⟩
    obtain rfl := Except.ok.inj (hdeclared.symm.trans he)
    exact hvalid
  · exact fun hvalid => ⟨d, hdeclared, hvalid⟩

theorem validate_migrate_draft06_of_draft07 {v : Json} (hnames : v.HasDistinctNames)
    (h : validate (migrate v .draft07) = .ok ()) :
    validate (migrate v .draft06) = .ok () ∧
      ∃ before after : Members, "$schema" ∉ names (before ++ after) ∧
        migrate v .draft07 = declaring before after .draft07 ∧
        migrate v .draft06 = declaring before after .draft06 := by
  have hobject := isObject_of_validate (hasDistinctNames_migrate hnames .draft07) h
  rw [isObject_migrate] at hobject
  cases v with
  | object ms =>
      obtain ⟨before, after, hfresh, hmigrate⟩ :=
        migrate_eq_declaring (Json.hasDistinctNames_object.mp hnames).1
      have h06 := hmigrate .draft06 (by decide)
      have h07 := hmigrate .draft07 (by decide)
      refine ⟨?_, before, after, hfresh, h07, h06⟩
      rw [validate_migrate_iff_isSchema (by decide) hnames, h07] at h
      rw [validate_migrate_iff_isSchema (by decide) hnames, h06]
      exact isSchema_declaring_draft06 h
  | _ => cases hobject

/-! ### Whole conversions -/

theorem convert_eq_ok_iff {processor : Processor Id} {options : ConversionOptions}
    {raml typeName : String} {schema : Json} :
    (convert processor options raml typeName).run = .ok schema ↔
      Document.checkHeader raml = .ok () ∧ ∃ raw,
        (processor (Document.wrap raml typeName) typeName options.basePath).run = .ok raw ∧
          (options.validate = true → validate (finishSchema raw options.draft) = .ok ()) ∧
          finishSchema raw options.draft = schema := by
  obtain ⟨answer, hanswer⟩ : ∃ answer : Except ProcessorError Json,
      processor (Document.wrap raml typeName) typeName options.basePath = pure answer := ⟨_, rfl⟩
  simp only [convert, convertWith, metaSchemaValidator, hanswer, pure_bind, Id.run_pure]
  cases Document.checkHeader raml with
  | error e => simp
  | ok _ =>
      cases answer with
      | error e => simp
      | ok raw =>
          by_cases hvalidate : options.validate = true
          · simp only [hvalidate, if_true]
            cases hverdict : validate (finishSchema raw options.draft) with
            | error e => simp [hverdict]
            | ok _ => simp [hverdict]
          · simp [hvalidate]

theorem hasDistinctNames_of_readOutput {output : List UInt8} {raw : Json}
    (h : readOutput output = .ok raw) : raw.HasDistinctNames := by
  cases hread : Json.ofOctets output with
  | error fault => simp [readOutput, hread] at h
  | ok v =>
      simp only [readOutput, hread] at h
      split at h
      · obtain rfl := Except.ok.inj h
        exact Json.hasDistinctNames_of_ofOctets hread
      · cases h

/-- A program that is a processor gives no object with two members of one name. -/
theorem Command.hasDistinctNames_of_conclude {c : Command} {finished : Finished} {raw : Json}
    (h : c.conclude finished = .ok raw) : raw.HasDistinctNames := by
  rw [conclude] at h
  split at h
  · exact hasDistinctNames_of_readOutput h
  · cases h

/-- **What a conversion to draft 07 gives, a conversion to draft 06 gives too, but for the name of
the draft at the root.** -/
theorem convert_draft06_of_draft07 {processor : Processor Id} {raml typeName : String}
    {basePath : Option String}
    (hnames : ∀ raw, (processor (Document.wrap raml typeName) typeName basePath).run = .ok raw →
      raw.HasDistinctNames)
    {schema : Json}
    (h : (convert processor ⟨.draft07, true, basePath⟩ raml typeName).run = .ok schema) :
    ∃ before after : Members, "$schema" ∉ names (before ++ after) ∧
      schema = declaring before after .draft07 ∧
      (convert processor ⟨.draft06, true, basePath⟩ raml typeName).run =
        .ok (declaring before after .draft06) := by
  obtain ⟨hheader, raw, hraw, hvalid, rfl⟩ := convert_eq_ok_iff.mp h
  obtain ⟨hvalid06, before, after, hfresh, h07, h06⟩ :=
    validate_migrate_draft06_of_draft07 (hasDistinctNames_fixSchema (hnames raw hraw)) (hvalid rfl)
  refine ⟨before, after, hfresh, h07, ?_⟩
  rw [convert_eq_ok_iff]
  exact ⟨hheader, raw, hraw, fun _ => hvalid06, h06⟩

/-- A cat has a picture and an age that is more than zero. -/
def catOutput : Json :=
  .object [
    ("id", .string "animals/cat"),
    ("$schema", .string "http://json-schema.org/draft-04/schema#"),
    ("properties", .object [
      ("photo", .object [
        ("type", .string "file"),
        ("x-amf-fileTypes", .array [.string "image/png"])]),
      ("age", .object [
        ("type", .string "integer"),
        ("minimum", .number (.integer 0)),
        ("exclusiveMinimum", .boolean true)])]),
    ("patternProperties", .object [("^x", .object [])])]

def catSchema : Json :=
  .object [
    ("$id", .string "animals/cat"),
    ("$schema", .string "http://json-schema.org/draft-07/schema#"),
    ("properties", .object [
      ("photo", .object [
        ("type", .string "string"),
        ("media", .object [
          ("binaryEncoding", .string "binary"),
          ("anyOf", .array [.object [("mediaType", .string "image/png")]])])]),
      ("age", .object [
        ("type", .string "integer"),
        ("exclusiveMinimum", .number (.integer 0))])]),
    ("patternProperties", .object [("^x", .object [])])]

def catLibrary : String :=
  "#%RAML 1.0 Library\ntypes:\n  Cat: object\n"

def catProcessor : Processor Id :=
  fun _ typeName _ =>
    pure (if typeName = "Cat" then .ok catOutput else .error (.notAnObject "null"))

theorem convert_catSchema :
    (convert catProcessor ⟨.draft07, true, none⟩ catLibrary "Cat").run = .ok catSchema ∧
      ∃ before after : Members, "$schema" ∉ names (before ++ after) ∧
        catSchema = declaring before after .draft07 ∧
        (convert catProcessor ⟨.draft06, true, none⟩ catLibrary "Cat").run =
          .ok (declaring before after .draft06) := by
  have hnames : ∀ raw, (catProcessor (Document.wrap catLibrary "Cat") "Cat" none).run = .ok raw →
      raw.HasDistinctNames := by
    intro raw hraw
    obtain rfl : catOutput = raw := Except.ok.inj hraw
    simp [catOutput, Json.HasDistinctNames, Json.ItemsHaveDistinctNames,
      Json.MembersHaveDistinctNames]
  have hconvert :
      (convert catProcessor ⟨.draft07, true, none⟩ catLibrary "Cat").run = .ok catSchema := by
    rw [convert_eq_ok_iff]
    exact ⟨by rfl, catOutput, rfl, fun _ => by rfl, by rfl⟩
  exact ⟨hconvert, convert_draft06_of_draft07 hnames hconvert⟩

end RamlSchema
