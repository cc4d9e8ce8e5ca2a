import RamlSchema.Conversion
import RamlSchema.Proofs.Json.Consumption

/-!
# The output of a processor and the text of a file

The output of a processor is read from its octets, and a file only after these were found to be a
text. Octets that are not a text are never read as JSON, so the two readers give the same, apart
from what is asked of the value.
-/

namespace RamlSchema

open Json Utf8

variable {b : List UInt8} {v : Json}

theorem isText_octets_iff : IsText b ↔ ∃ text : String, b = text.octets := by
  constructor
  · rintro ⟨cs, rfl⟩
    exact ⟨String.ofList cs, by rw [String.octets, String.toList_ofList]⟩
  · rintro ⟨text, rfl⟩
    exact ⟨text.toList, rfl⟩

theorem loadSchemaText_eq_ok_iff {text : String} :
    loadSchemaText text = .ok v ↔ ofOctets text.octets = .ok v := by
  rw [loadSchemaText, ofText]
  cases ofOctets text.octets with
  | error fault => simp
  | ok w => simp

theorem ofOctets_eq_ok_iff :
    ofOctets b = .ok v ↔ ∃ text : String, b = text.octets ∧ loadSchemaText text = .ok v := by
  constructor
  · intro h
    obtain ⟨text, rfl⟩ := isText_octets_iff.mp (isText_of_ofOctets b h)
    exact ⟨text, rfl, loadSchemaText_eq_ok_iff.mpr h⟩
  · rintro ⟨text, rfl, h⟩
    exact loadSchemaText_eq_ok_iff.mp h

theorem readOutput_of_ofOctets (h : ofOctets b = .ok v) :
    readOutput b = if v.isObject then .ok v else .error (.notAnObject v.typeName) := by
  rw [readOutput, h]

theorem readOutput_of_fault {fault : ReadError} (h : ofOctets b = .error fault) :
    readOutput b = .error (.invalidJson fault) := by
  rw [readOutput, h]

theorem readOutput_eq_ok_iff :
    readOutput b = .ok v ↔ ofOctets b = .ok v ∧ v.isObject = true := by
  cases hread : ofOctets b with
  | error fault =>
      rw [readOutput_of_fault hread]
      simp
  | ok w =>
      rw [readOutput_of_ofOctets hread]
      split
      · next hobject =>
          rw [Except.ok.injEq, Except.ok.injEq, iff_self_and]
          rintro rfl
          exact hobject
      · next hobject =>
          rw [Except.ok.injEq]
          refine iff_of_false nofun ?_
          rintro ⟨rfl, h⟩
          exact hobject h

theorem readOutput_eq_notAnObject_iff {name : String} :
    readOutput b = .error (.notAnObject name) ↔
      ∃ v, ofOctets b = .ok v ∧ v.isObject = false ∧ v.typeName = name := by
  cases hread : ofOctets b with
  | error fault =>
      rw [readOutput_of_fault hread]
      simp
  | ok w =>
      rw [readOutput_of_ofOctets hread]
      split
      · next hobject =>
          refine iff_of_false nofun ?_
          rintro ⟨v, h, hother, _⟩
          obtain rfl := Except.ok.inj h
          exact absurd hother (by simp [hobject])
      · next hobject => simp [hobject]

/-- **The two ways to read JSON agree.** A processor's output gives a schema if and only if it is
the text of an object, and is told not to be an object if and only if it is the text of another
value. A text that is no JSON is refused for the same fault at the same place, and octets that are
no text are always refused. -/
theorem readOutput_iff_loadSchemaText (b : List UInt8) :
    (∀ v, readOutput b = .ok v ↔
      ∃ text : String, b = text.octets ∧ loadSchemaText text = .ok v ∧ v.isObject = true) ∧
    (∀ name, readOutput b = .error (.notAnObject name) ↔
      ∃ (text : String) (v : Json), b = text.octets ∧ loadSchemaText text = .ok v ∧
        v.isObject = false ∧ v.typeName = name) ∧
    (∀ (text : String) (e : ConversionError), b = text.octets → loadSchemaText text = .error e →
      ∃ fault, e = .invalidJson fault ∧ readOutput b = .error (.invalidJson fault)) ∧
    ((¬ ∃ text : String, b = text.octets) →
      ∃ fault, readOutput b = .error (.invalidJson fault)) := by
  refine ⟨fun v => ?_, fun name => ?_, ?_, ?_⟩
  · simp only [readOutput_eq_ok_iff, ofOctets_eq_ok_iff, ← exists_and_right, and_assoc]
  · rw [readOutput_eq_notAnObject_iff]
    constructor
    · rintro ⟨v, hread, hkind⟩
      obtain ⟨text, htext, hload⟩ := ofOctets_eq_ok_iff.mp hread
      exact ⟨text, v, htext, hload, hkind⟩
    · rintro ⟨text, v, htext, hload, hkind⟩
      exact ⟨v, ofOctets_eq_ok_iff.mpr ⟨text, htext, hload⟩, hkind⟩
  · rintro text e rfl hload
    cases hread : ofOctets text.octets with
    | error fault =>
        rw [loadSchemaText, ofText, hread] at hload
        exact ⟨fault, (Except.error.inj hload).symm, readOutput_of_fault hread⟩
    | ok v =>
        rw [loadSchemaText_eq_ok_iff.mpr hread] at hload
        cases hload
  · intro hother
    cases hread : ofOctets b with
    | error fault => exact ⟨fault, readOutput_of_fault hread⟩
    | ok v => exact absurd (isText_octets_iff.mp (isText_of_ofOctets b hread)) hother

end RamlSchema
