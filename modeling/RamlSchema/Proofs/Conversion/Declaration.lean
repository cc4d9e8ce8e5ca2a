import RamlSchema.Proofs.Conversion.Drafts
import RamlSchema.Proofs.Fix.Fusion

/-!
# The draft that a conversion declares

A schema is checked against the draft that it names itself. Migration to a later draft writes the
name, whatever the processor wrote. Draft 04 is what schemas come in, so for draft 04 nothing is
written: the name is the one in the processor's schema, under its own name or with a mark in front,
and where there is none the schema is of draft 04.
-/

namespace RamlSchema

open Members VendorName

/-- The draft that the schema of a processor names: of the members at its root that come to stand
under the name for it, the last one has the URI of this draft. -/
def NamesDraft (raw : Json) (d : Draft) : Prop :=
  ∃ (ms : Members) (k uri : String), raw = .object ms ∧ Lasts ms k (.string uri) ∧
    unmark k = "$schema" ∧ Draft.ofMetaSchemaUri? uri = some d

theorem member?_eq_none {v : Json} (h : v.isObject = false) (name : String) :
    v.member? name = none := by
  cases v with
  | object ms => exact absurd h (by simp [Json.isObject])
  | _ => rfl

/-- What a fixed schema has under the name for its draft is there already, with a mark or without:
nothing that is done to a file touches it. -/
theorem member?_fixSchema {raw : Json} (hnames : raw.HasDistinctNames) {v : Json} :
    (fixSchema raw).member? "$schema" = some v ↔ ∃ (ms : Members) (k : String) (w : Json),
      raw = .object ms ∧ Lasts ms k w ∧ unmark k = "$schema" ∧ fixSchema w = v := by
  cases raw with
  | object ms =>
      have hnodup := (Json.hasDistinctNames_object.mp hnames).1
      have hlisted : ∀ w, ExampleList.listed "$schema" w = w :=
        fun w => ExampleList.listed_eq_self (.inl (by decide))
      have hlasts : ∀ k w, unmark k = "$schema" →
          (Lasts (FileType.rule.step ms) k w ↔ Lasts ms k w) := by
        intro k w hk
        apply lasts_step_iff
        rw [hk]
        decide
      rw [fixSchema_object_of_nodup hnodup, Json.member?, find?_mapValues, Option.map_eq_some_iff]
      simp only [find?_unmarkAll, hlisted, Json.object.injEq]
      constructor
      · rintro ⟨w, ⟨k, hk, hname⟩, rfl⟩
        exact ⟨ms, k, w, rfl, (hlasts k w hname).mp hk, hname, rfl⟩
      · rintro ⟨_, k, w, rfl, hk, hname, rfl⟩
        exact ⟨w, ⟨k, (hlasts k w hname).mpr hk, hname⟩, rfl⟩
  | _ =>
      rw [member?_eq_none (walks_fixSchema.isObject _)]
      simp

theorem declaredDraft_fixSchema {raw : Json} (hnames : raw.HasDistinctNames) {d : Draft}
    (h : declaredDraft (fixSchema raw) = .ok d) :
    (d = .draft04 ∨ NamesDraft raw d) ∧ ∀ e, NamesDraft raw e → d = e := by
  have hnamed : ∀ e, NamesDraft raw e → declaredDraft (fixSchema raw) = .ok e := by
    rintro e ⟨ms, k, uri, hraw, hlasts, hname, huri⟩
    refine declaredDraft_eq_ok_iff.mpr (.inr ⟨uri, ?_, huri⟩)
    exact (member?_fixSchema hnames).mpr ⟨ms, k, _, hraw, hlasts, hname, rfl⟩
  refine ⟨?_, fun e he => Except.ok.inj (h.symm.trans (hnamed e he))⟩
  rcases declaredDraft_eq_ok_iff.mp h with ⟨_, hd⟩ | ⟨uri, hmember, huri⟩
  · exact .inl hd
  · obtain ⟨ms, k, w, hraw, hlasts, hname, hw⟩ := (member?_fixSchema hnames).mp hmember
    obtain rfl := walks_fixSchema.eq_string_iff.mp hw
    exact .inr ⟨ms, k, uri, hraw, hlasts, hname, huri⟩

/-- **The draft that a converted schema declares, and is checked against.** It is the draft that was
asked for, except that for draft 04 it is whatever draft the processor's schema names. -/
theorem declaredDraft_convert {processor : Processor Id} {options : ConversionOptions}
    {raml typeName : String}
    (hnames : ∀ raw, (processor (Document.wrap raml typeName) typeName options.basePath).run =
      .ok raw → raw.HasDistinctNames)
    (hvalidate : options.validate = true) {schema : Json}
    (h : (convert processor options raml typeName).run = .ok schema) :
    ∃ raw d, (processor (Document.wrap raml typeName) typeName options.basePath).run = .ok raw ∧
      declaredDraft schema = .ok d ∧ validateAs d schema = .ok () ∧
      (d = options.draft ∨ options.draft = .draft04 ∧ NamesDraft raw d) ∧
      (options.draft = .draft04 → ∀ e, NamesDraft raw e → d = e) := by
  obtain ⟨_, raw, hraw, hvalid, rfl⟩ := convert_eq_ok_iff.mp h
  have hdistinct := hnames raw hraw
  have hvalid := hvalid hvalidate
  obtain ⟨d, hdeclared, hvalidAs⟩ := (validate_eq_ok_iff_validateAs _).mp hvalid
  refine ⟨raw, d, hraw, hdeclared, hvalidAs, ?_⟩
  by_cases hdraft : options.draft = .draft04
  · rw [finishSchema, hdraft, migrate] at hdeclared
    obtain ⟨hnamed, hunique⟩ := declaredDraft_fixSchema hdistinct hdeclared
    rw [hdraft]
    exact ⟨hnamed.imp id fun hd => ⟨rfl, hd⟩, fun _ => hunique⟩
  · have hobject := isObject_of_validate
      (Migration.hasDistinctNames_migrate (hasDistinctNames_fixSchema hdistinct) _) hvalid
    rw [isObject_migrate] at hobject
    refine ⟨.inl ?_, fun hd => absurd hd hdraft⟩
    cases hfixed : fixSchema raw with
    | object ms =>
        rw [finishSchema, hfixed, Migration.declaredDraft_migrate hdraft] at hdeclared
        exact (Except.ok.inj hdeclared).symm
    | _ =>
        rw [hfixed] at hobject
        cases hobject

/-- An empty schema of draft 04 that a marked name makes one of draft 06. -/
def driftingOutput : Json :=
  .object [
    ("$schema", .string "http://json-schema.org/draft-04/schema#"),
    ("x-amf-$schema", .string "https://json-schema.org/draft-06/schema")]

def driftingProcessor : Processor Id :=
  fun _ _ _ => pure (.ok driftingOutput)

def driftedSchema : Json :=
  .object [("$schema", .string "https://json-schema.org/draft-06/schema")]

theorem hasDistinctNames_driftingProcessor (document typeName : String)
    (basePath : Option String) :
    ∀ raw, (driftingProcessor document typeName basePath).run = .ok raw → raw.HasDistinctNames := by
  intro raw hraw
  obtain rfl : driftingOutput = raw := Except.ok.inj hraw
  simp [driftingOutput, Json.HasDistinctNames, Json.MembersHaveDistinctNames]

theorem convert_driftedSchema :
    (convert driftingProcessor {} "#%RAML 1.0" "Any").run = .ok driftedSchema := by
  rw [convert_eq_ok_iff]
  exact ⟨by rfl, driftingOutput, rfl, fun _ => by rfl, by rfl⟩

theorem declaredDraft_driftedSchema : declaredDraft driftedSchema = .ok .draft06 := by
  rfl

theorem declaredDraft_convert_driftedSchema :
    validateAs .draft06 driftedSchema = .ok () ∧ NamesDraft driftingOutput .draft06 := by
  obtain ⟨raw, d, hraw, hdeclared, hvalid, hd, _⟩ := declaredDraft_convert
    (hasDistinctNames_driftingProcessor _ _ _) rfl convert_driftedSchema
  obtain rfl : driftingOutput = raw := Except.ok.inj hraw
  obtain rfl : d = .draft06 := Except.ok.inj (hdeclared.symm.trans declaredDraft_driftedSchema)
  exact ⟨hvalid, (hd.resolve_left (by decide)).2⟩

/-- A conversion to draft 04 can give a schema of a later draft. -/
theorem exists_declaredDraft_ne :
    ¬∀ (processor : Processor Id) (options : ConversionOptions) (raml typeName : String)
      (schema : Json),
      (∀ document typeName basePath raw,
        (processor document typeName basePath).run = .ok raw → raw.HasDistinctNames) →
      options.validate = true → (convert processor options raml typeName).run = .ok schema →
      declaredDraft schema = .ok options.draft := by
  intro h
  have hdraft := h driftingProcessor {} "#%RAML 1.0" "Any" driftedSchema
    hasDistinctNames_driftingProcessor rfl convert_driftedSchema
  exact absurd (hdraft.symm.trans declaredDraft_driftedSchema) (by decide)

end RamlSchema
