import RamlSchema.Conversion
import RamlSchema.Proofs.Json.Reading
import RamlSchema.Proofs.Json.RoundTrip

/-!
# Schemas as texts

A schema leaves one stage as a text and enters the next one as a text, from a file or from the
output of a processor. Where it fits the levels of the reader, no stage can tell the text from the
schema.
-/

namespace RamlSchema

open Json

theorem isRead_of_loadSchemaText {text : String} {v : Json} (h : loadSchemaText text = .ok v) :
    IsRead nestingLimit v := by
  rw [loadSchemaText] at h
  split at h
  · next w hread =>
      obtain rfl := Except.ok.inj h
      exact isRead_of_ofOctets hread
  · cases h

theorem octets_text (l : Layout) (v : Json) (blank : String) :
    (l.text v ++ blank).octets = Utf8.encode (l.chars 0 v) ++ blank.octets := by
  rw [String.octets, String.toList_append, Layout.text, String.toList_ofList, Utf8.encode_append]
  rfl

variable {v : Json}

/-- A schema is loaded from its text if it is not nested too deep, and that is the only reason not
to load it. -/
theorem loadSchemaText_text (l : Layout) (hnames : v.HasDistinctNames) (hkept : v.KeepsNumbers)
    {blank : String} (hblank : ∀ b ∈ blank.octets, isSpace b = true) :
    (v.depth ≤ nestingLimit → loadSchemaText (l.text v ++ blank) = .ok v) ∧
      (nestingLimit < v.depth → ∃ e, loadSchemaText (l.text v ++ blank) = .error (.invalidJson e) ∧
        e.cause = .tooDeep) := by
  obtain ⟨hfits, hdeep⟩ := l.ofOctets_chars hnames hkept hblank
  rw [← octets_text] at hfits hdeep
  constructor
  · intro hdepth
    rw [loadSchemaText, ofText, hfits hdepth]
  · intro hdepth
    obtain ⟨e, hfault, hcause⟩ := hdeep hdepth
    refine ⟨e, ?_, hcause⟩
    rw [loadSchemaText, ofText, hfault]

theorem loadSchemaText_text_alone (l : Layout) (hnames : v.HasDistinctNames)
    (hkept : v.KeepsNumbers) (hdepth : v.depth ≤ nestingLimit) :
    loadSchemaText (l.text v) = .ok v := by
  have hblank : ∀ b ∈ "".octets, isSpace b = true := fun _ h => absurd h List.not_mem_nil
  have hload := (loadSchemaText_text l hnames hkept hblank).1 hdepth
  rwa [String.append_empty] at hload

theorem readOutput_text (l : Layout) (hnames : v.HasDistinctNames) (hkept : v.KeepsNumbers)
    (hdepth : v.depth ≤ nestingLimit) (hobject : v.isObject = true) :
    readOutput (l.text v).octets = .ok v := by
  have htail : ∀ b ∈ ([] : List UInt8), isSpace b = true := by simp
  have hread := (l.ofOctets_chars hnames hkept htail).1 hdepth
  rw [List.append_nil] at hread
  have hoctets : (l.text v).octets = Utf8.encode (l.chars 0 v) := by
    rw [String.octets, Layout.text, String.toList_ofList]
  rw [readOutput, hoctets, hread]
  exact if_pos hobject

/-- **A schema is read back from its text, compact or pretty.** All of it is kept, the order of the
names too, if its numbers are integers of 64 bits and it is nested at most 127 levels deep. -/
theorem loadSchemaText_compact_and_pretty (hnames : v.HasDistinctNames) (hwords : v.HasWords)
    (hdepth : v.depth ≤ 127) :
    loadSchemaText v.compact = .ok v ∧ loadSchemaText v.pretty = .ok v ∧
      (v.isObject = true →
        readOutput v.compact.octets = .ok v ∧ readOutput v.pretty.octets = .ok v) := by
  have hload : ∀ l : Layout, loadSchemaText (l.text v) = .ok v := by
    intro l
    have hblank : ∀ b ∈ "".octets, isSpace b = true := fun _ h => absurd h List.not_mem_nil
    have htext := (loadSchemaText_text l hnames hwords.keepsNumbers hblank).1 hdepth
    rwa [String.append_empty] at htext
  have hread : ∀ l : Layout, v.isObject = true → readOutput (l.text v).octets = .ok v :=
    fun l => readOutput_text l hnames hwords.keepsNumbers hdepth
  refine ⟨hload .compact, hload .pretty, fun hobject => ?_⟩
  exact ⟨hread .compact hobject, hread .pretty hobject⟩

/-- A schema with what is written in a special way: the ends of 64 bits, zero, characters of all
lengths and control characters, and containers with nothing in them. -/
def edgeSchema : Json :=
  .object [
    ("maximum", .number (.integer 18446744073709551615)),
    ("minimum", .number (.integer (-9223372036854775808))),
    ("minLength", .number (.integer 0)),
    ("quote \" and \\ slash", .string "\x00\x08\x09\x0a\x0c\x0d\x1f\x20\x7f"),
    ("", .string "aéあ𝄞"),
    ("enum", .array [
      .array [], .object [], .array [.array [.null, .boolean true], .boolean false]])]

theorem loadSchemaText_edgeSchema :
    edgeSchema.HasDistinctNames ∧ edgeSchema.HasWords ∧ edgeSchema.depth ≤ 127 ∧
      loadSchemaText edgeSchema.compact = .ok edgeSchema ∧
      loadSchemaText edgeSchema.pretty = .ok edgeSchema ∧
      readOutput edgeSchema.compact.octets = .ok edgeSchema ∧
      readOutput edgeSchema.pretty.octets = .ok edgeSchema := by
  have hnames : edgeSchema.HasDistinctNames := by
    simp [edgeSchema, HasDistinctNames, ItemsHaveDistinctNames, MembersHaveDistinctNames]
  have hwords : edgeSchema.HasWords := by decide
  have hdepth : edgeSchema.depth ≤ 127 := by decide
  obtain ⟨hcompact, hpretty, hread⟩ := loadSchemaText_compact_and_pretty hnames hwords hdepth
  exact ⟨hnames, hwords, hdepth, hcompact, hpretty, hread rfl⟩

end RamlSchema
