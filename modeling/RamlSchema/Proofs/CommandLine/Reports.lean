import RamlSchema.Proofs.CommandLine.Files
import RamlSchema.Proofs.Conversion.Texts
import RamlSchema.Proofs.Json.Lines

/-!
# The two reports on a schema file

What is found of a schema file is told in words or as a line of JSON. Either way the program ends
with the same code, and the members of the line say what the words say: it is one line, and it is
read back whole, whatever line breaks and quotation marks stand in a message.
-/

namespace RamlSchema

open Members

theorem ProcessorError.exitCode_ne_zero (e : ProcessorError) : e.exitCode ≠ 0 := by
  cases e <;> exact nofun

theorem ValidityError.exitCode_ne_zero (e : ValidityError) : e.exitCode ≠ 0 := by
  cases e <;> exact nofun

theorem ConversionError.exitCode_ne_zero (e : ConversionError) : e.exitCode ≠ 0 := by
  cases e with
  | processor e => exact e.exitCode_ne_zero
  | validity e => exact e.exitCode_ne_zero
  | _ => exact nofun

theorem exists_fault_of_loadSchemaText {text : String} {e : ConversionError}
    (h : loadSchemaText text = .error e) : ∃ fault, e = .invalidJson fault := by
  rw [loadSchemaText] at h
  split at h
  · cases h
  · cases h
    exact ⟨_, rfl⟩

/-- An object of flags and texts is read back from its compact text. -/
theorem loadSchemaText_compact_of_flat {ms : Members} (hnodup : (names ms).Nodup)
    (hflat : ∀ m ∈ ms, (∃ b, m.2 = .boolean b) ∨ ∃ s, m.2 = .string s) :
    loadSchemaText (Json.object ms).compact = .ok (.object ms) := by
  have hvalues : ∀ m ∈ ms, m.2.HasDistinctNames ∧ m.2.KeepsNumbers ∧ m.2.depth = 0 := by
    intro m hm
    rcases hflat m hm with ⟨b, hb⟩ | ⟨s, hs⟩
    · rw [hb]
      exact ⟨trivial, nofun, rfl⟩
    · rw [hs]
      exact ⟨trivial, nofun, rfl⟩
  have hnames := Json.hasDistinctNames_object.mpr ⟨hnodup, fun m hm => (hvalues m hm).1⟩
  have hkept := Json.keepsNumbers_object.mpr fun m hm => (hvalues m hm).2.1
  have hdepth : (Json.object ms).depth ≤ 0 + 1 :=
    Json.depth_object_le_iff.mpr fun m hm => Nat.le_of_eq (hvalues m hm).2.2
  show loadSchemaText (Json.Layout.compact.text (.object ms)) = _
  exact loadSchemaText_text_alone .compact hnames hkept (Nat.le_trans hdepth (by decide))

namespace CommandLine

def textMember (name : String) (text? : Option String) : Members :=
  text?.toList.map fun text => (name, .string text)

/-- A report with whatever it has to tell. -/
def reportOf (valid : Bool) (draft? path? error? : Option String) : Json :=
  .object (("valid", .boolean valid) ::
    (textMember "draft" draft? ++ (textMember "path" path? ++ textMember "error" error?)))

section ReportOf

variable (valid : Bool) (draft? path? error? : Option String)

theorem member?_reportOf :
    (reportOf valid draft? path? error?).member? "valid" = some (.boolean valid) ∧
      (reportOf valid draft? path? error?).member? "draft" = draft?.map .string ∧
      (reportOf valid draft? path? error?).member? "path" = path?.map .string ∧
      (reportOf valid draft? path? error?).member? "error" = error?.map .string := by
  have hself : ∀ name text?, find? name (textMember name text?) = text?.map .string := by
    intro name text?
    cases text? <;> simp [textMember, find?]
  have hother : ∀ name other text?, other ≠ name → find? name (textMember other text?) = none := by
    intro name other text? hne
    cases text? <;> simp [textMember, find?, hne]
  simp [reportOf, Json.member?, find?, find?_append, hself, hother]

theorem loadSchemaText_reportOf :
    loadSchemaText (reportOf valid draft? path? error?).compact =
      .ok (reportOf valid draft? path? error?) := by
  refine loadSchemaText_compact_of_flat ?_ fun m hm => ?_
  · cases draft? <;> cases path? <;> cases error? <;> simp [textMember]
  · simp only [textMember, List.mem_cons, List.mem_append, List.mem_map] at hm
    rcases hm with rfl | ⟨text, _, rfl⟩ | ⟨text, _, rfl⟩ | ⟨text, _, rfl⟩
    · exact .inl ⟨valid, rfl⟩
    all_goals exact .inr ⟨text, rfl⟩

end ReportOf

/-! ### What a finding has to tell -/

namespace Finding

def draft? : Finding → Option Draft
  | checked (.ok draft) _ => some draft
  | _ => none

def path? : Finding → Option String
  | checked _ (.error (.invalid path _)) => some path
  | _ => none

def error? : Finding → Option String
  | notLoaded e => some (loadingText e)
  | checked _ (.error e) => some e.message
  | checked _ (.ok ()) => none

theorem report_eq (f : Finding) :
    f.report = reportOf (f.code == 0) (f.draft?.map Draft.selector) f.path? f.error? := by
  cases f with
  | notLoaded e =>
      have hcode : (e.exitCode == 0) = false := beq_eq_false_iff_ne.mpr e.exitCode_ne_zero
      rw [code, hcode]
      rfl
  | checked declared result =>
      cases result with
      | ok u => cases declared <;> rfl
      | error e => cases declared <;> cases e <;> rfl

theorem code_inWords (f : Finding) : f.inWords.code = f.code := by
  cases f with
  | notLoaded e => rfl
  | checked declared result => cases result <;> rfl

theorem isSome_error?_iff (f : Finding) : f.error?.isSome = true ↔ f.code ≠ 0 := by
  cases f with
  | notLoaded e => exact iff_of_true rfl e.exitCode_ne_zero
  | checked declared result =>
      cases result with
      | ok u => exact iff_of_false nofun fun h => h rfl
      | error e => exact iff_of_true rfl e.exitCode_ne_zero

theorem stdout_inWords {f : Finding} (h : f.code ≠ 0) : f.inWords.stdout = "" := by
  cases f with
  | notLoaded e => rfl
  | checked declared result =>
      cases result with
      | ok u => exact absurd rfl h
      | error e => rfl

end Finding

/-! ### What is found of a text -/

section Text

variable {text : String}

theorem code_findingOf_eq_zero_iff : (findingOf (loadSchemaText text)).code = 0 ↔
    ∃ v, loadSchemaText text = .ok v ∧ validate v = .ok () := by
  cases loadSchemaText text with
  | error e => exact iff_of_false e.exitCode_ne_zero nofun
  | ok v =>
      rw [findingOf, examine]
      cases hvalid : validate v with
      | ok u => exact iff_of_true rfl ⟨v, rfl, hvalid⟩
      | error e => exact iff_of_false e.exitCode_ne_zero (by simp [hvalid])

theorem draft?_findingOf_eq_some_iff {d : Draft} :
    (findingOf (loadSchemaText text)).draft? = some d ↔
      ∃ v, loadSchemaText text = .ok v ∧ declaredDraft v = .ok d := by
  cases loadSchemaText text with
  | error e => exact iff_of_false nofun nofun
  | ok v =>
      rw [findingOf, examine]
      cases hdraft : declaredDraft v <;> simp [Finding.draft?, hdraft]

/-- An error has a place exactly where the code is 1. A text that is not loaded has none. -/
theorem isSome_path?_findingOf_iff : (findingOf (loadSchemaText text)).path?.isSome = true ↔
    (findingOf (loadSchemaText text)).code = 1 := by
  cases hload : loadSchemaText text with
  | error e =>
      obtain ⟨fault, rfl⟩ := exists_fault_of_loadSchemaText hload
      exact iff_of_false nofun nofun
  | ok v =>
      rw [findingOf, examine]
      cases validate v with
      | ok u => exact iff_of_false nofun nofun
      | error e =>
          cases e with
          | invalid path message => exact iff_of_true rfl rfl
          | unknownDraft uri => exact iff_of_false nofun nofun
          | unavailable reason => exact iff_of_false nofun nofun

/-- The words for an error are its message, with a mark in front if the text was not loaded. -/
theorem stderr_inWords_findingOf {message : String}
    (h : (findingOf (loadSchemaText text)).error? = some message) :
    (findingOf (loadSchemaText text)).inWords.stderr =
      (match loadSchemaText text with
        | .ok _ => message
        | .error _ => "Error: " ++ message) ++ "\n" := by
  cases hload : loadSchemaText text with
  | error e =>
      rw [hload] at h
      obtain rfl := Option.some.inj h
      rfl
  | ok v =>
      rw [hload, findingOf, examine] at h
      rw [findingOf, examine]
      cases hvalid : validate v with
      | ok u =>
          rw [hvalid] at h
          cases h
      | error e =>
          rw [hvalid] at h
          obtain rfl := Option.some.inj h
          rfl

end Text

/-- What a report says of a text, beside the outcome in words for the same text. -/
structure Tells (text : String) (words : Outcome) (report : Json) : Prop where
  valid : report.member? "valid" = some (.boolean (words.code == 0))
  path : (report.member? "path").isSome = true ↔ words.code = 1
  draft : ∀ x, report.member? "draft" = some x ↔
    ∃ v d, loadSchemaText text = .ok v ∧ declaredDraft v = .ok d ∧ x = .string d.selector
  error : (report.member? "error").isSome = true ↔ words.code ≠ 0
  message : ∀ x, report.member? "error" = some x → ∃ message, x = .string message ∧
    words.stderr =
      (match loadSchemaText text with
        | .ok _ => message
        | .error _ => "Error: " ++ message) ++ "\n"

theorem tells_findingOf (text : String) :
    Tells text (findingOf (loadSchemaText text)).inWords
      (findingOf (loadSchemaText text)).report := by
  generalize hfinding : findingOf (loadSchemaText text) = f
  obtain ⟨hvalid, hdraft, hpath, herror⟩ :=
    member?_reportOf (f.code == 0) (f.draft?.map Draft.selector) f.path? f.error?
  rw [← f.report_eq] at hvalid hdraft hpath herror
  subst hfinding
  constructor
  case valid => rw [hvalid, Finding.code_inWords]
  case path =>
    rw [hpath, Option.isSome_map, Finding.code_inWords]
    exact isSome_path?_findingOf_iff
  case draft =>
    intro x
    simp only [hdraft, Option.map_eq_some_iff, draft?_findingOf_eq_some_iff]
    constructor
    · rintro ⟨_, ⟨d, ⟨v, hv, hd⟩, rfl⟩, rfl⟩
      exact ⟨v, d, hv, hd, rfl⟩
    · rintro ⟨v, d, hv, hd, rfl⟩
      exact ⟨_, ⟨d, ⟨v, hv, hd⟩, rfl⟩, rfl⟩
  case error =>
    rw [herror, Option.isSome_map, Finding.code_inWords]
    exact Finding.isSome_error?_iff _
  case message =>
    intro x hx
    rw [herror] at hx
    obtain ⟨message, hmessage, rfl⟩ := Option.map_eq_some_iff.mp hx
    exact ⟨message, rfl, stderr_inWords_findingOf hmessage⟩

theorem runTask_validate {m : Type → Type} [Monad m] [LawfulMonad m] {host : Host m}
    {path text : String} (hfile : host.Holds path text) (json : Bool) :
    runTask host (.validate path json) =
      pure ((findingOf (loadSchemaText text)).outcome json) := by
  rw [runTask, runValidate, hfile.loadSchema, pure_bind]

/-- **The two reports on a schema file say the same.** Whatever text is in the file and however the
two are asked for, the code is the same, and it is 0 for a valid schema only. In words an error goes
to the standard error alone; in JSON all goes to the standard output, as one line that is read as the
report. -/
theorem exists_report_of_run_validate {m : Type → Type} [Monad m] [LawfulMonad m] {host : Host m}
    {path text : String} (hfile : host.Holds path text)
    {parser parser' : Option String} {arguments arguments' : List String}
    (hwords : readRequest parser arguments = .run (.validate path false))
    (hjson : readRequest parser' arguments' = .run (.validate path true)) :
    ∃ words line report,
      run host parser arguments = pure words ∧
      run host parser' arguments' = pure ⟨words.code, line ++ "\n", ""⟩ ∧
      (words.code = 0 ↔ ∃ v, loadSchemaText text = .ok v ∧ validate v = .ok ()) ∧
      (words.code ≠ 0 → words.stdout = "") ∧
      IsSingleLine line.toList ∧ loadSchemaText line = .ok report ∧ Tells text words report := by
  have htells := tells_findingOf text
  have hcode : (findingOf (loadSchemaText text)).code = 0 ↔ _ := code_findingOf_eq_zero_iff
  have hruns := runTask_validate hfile
  generalize findingOf (loadSchemaText text) = f at htells hcode hruns
  rw [← f.code_inWords] at hcode
  refine ⟨f.inWords, f.report.compact, f.report, ?_, ?_, hcode, fun hne => ?_, ?_, ?_, htells⟩
  · rw [run, hwords]
    exact hruns false
  · rw [run, hjson, f.code_inWords]
    exact hruns true
  · exact Finding.stdout_inWords (f.code_inWords ▸ hne)
  · rw [Json.compact, String.toList_ofList]
    exact Json.isSingleLine_compactChars f.report
  · rw [f.report_eq]
    exact loadSchemaText_reportOf _ _ _ _

/-- A schema that names something of two lines, and so none of the drafts. -/
def strayText : String :=
  "\x7b\"$schema\":\"two\\nlines\"\x7d"

def strayWords : Outcome :=
  ⟨2, "", "no schema with key or ref \"two\nlines\"\n"⟩

theorem run_validate_strayText :
    (run (oneFile "stray.json" strayText) none ["validate", "stray.json"]).run = strayWords := by
  decide +kernel

/-- The message has two lines in words, and is on one line in JSON. -/
theorem tells_strayText :
    (run (oneFile "stray.json" strayText) none ["validate", "stray.json"]).run = strayWords ∧
      ∃ line report,
        (run (oneFile "stray.json" strayText) none ["validate", "--json", "stray.json"]).run =
          ⟨2, line ++ "\n", ""⟩ ∧
        IsSingleLine line.toList ∧ loadSchemaText line = .ok report ∧
        Tells strayText strayWords report := by
  have hwords : readRequest none ["validate", "stray.json"] =
      .run (.validate "stray.json" false) := by decide
  have hjson : readRequest none ["validate", "--json", "stray.json"] =
      .run (.validate "stray.json" true) := by decide
  obtain ⟨words, line, report, hrun, hreport, _, _, hline, hload, htells⟩ :=
    exists_report_of_run_validate (holds_oneFile "stray.json" strayText) hwords hjson
  obtain rfl : strayWords = words := run_validate_strayText.symm.trans hrun
  exact ⟨hrun, line, report, hreport, hline, hload, htells⟩

end CommandLine

end RamlSchema
