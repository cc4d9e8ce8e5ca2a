import RamlSchema.Json.Reader
import RamlSchema.Json.Writer
import RamlSchema.Proofs.Json.NumberToken
import RamlSchema.Proofs.Json.StringToken

/-!
# Scalars read back

The kind of a scalar is seen from its first octet. Words, strings and integers of 64 bits are read
back from what is written of them, in front of other tokens too. A double is if it is read back from
its text alone, which does not hold of all of them.
-/

namespace RamlSchema

open Utf8

theorem Read.exists_of_map_eq_ok {α β : Type} {step : Read α} {f : α → β} {b : β}
    {rest : List UInt8} (h : step.map f = .ok (b, rest)) : ∃ a, step = .ok (a, rest) ∧ f a = b := by
  cases step with
  | error fault => cases h
  | ok found =>
      obtain ⟨a, left⟩ := found
      obtain ⟨hb, rfl⟩ := Prod.mk.inj (Except.ok.inj h)
      exact ⟨a, rfl, hb⟩

open Read

namespace Json

theorem skipSpace_append {blank : List UInt8} (hblank : ∀ b ∈ blank, isSpace b = true)
    (text : List UInt8) : skipSpace (blank ++ text) = skipSpace text :=
  List.dropWhile_append_of_pos hblank

theorem skipSpace_cons {b : UInt8} (hb : isSpace b = false) (rest : List UInt8) :
    skipSpace (b :: rest) = b :: rest :=
  List.dropWhile_cons_of_neg (Bool.eq_false_iff.mp hb)

theorem endsNumber_append {blank text : List UInt8} (hblank : ∀ b ∈ blank, isSpace b = true)
    (htext : EndsNumber text) : EndsNumber (blank ++ text) := by
  cases blank with
  | nil => exact htext
  | cons b blank =>
      have hb := hblank b List.mem_cons_self
      simp only [isSpace, Bool.or_eq_true, decide_eq_true_eq] at hb
      rcases hb with ((rfl | rfl) | rfl) | rfl <;>
        exact ⟨by decide, by decide, by decide, by decide⟩

/-- A text begins with no blank, and not with a closing bracket of a kind. -/
def Starts (close : UInt8) (text : List UInt8) : Prop :=
  ∃ b more, text = b :: more ∧ isSpace b = false ∧ b ≠ close

theorem Starts.append {close : UInt8} {text : List UInt8} (h : Starts close text)
    (rest : List UInt8) : Starts close (text ++ rest) := by
  obtain ⟨b, more, rfl, hb⟩ := h
  exact ⟨b, more ++ rest, rfl, hb⟩

/-! ### Scalars -/

theorem readValue_append {blank : List UInt8} (hblank : ∀ b ∈ blank, isSpace b = true)
    (levels : Nat) (text : List UInt8) :
    readValue levels (blank ++ text) = readValue levels text := by
  cases levels <;> rw [readValue, readValue, skipSpace_append hblank]

theorem readValue_scalar {b : UInt8} (hspace : isSpace b = false) (hbracket : b ≠ 0x5B)
    (hbrace : b ≠ 0x7B) (levels : Nat) (rest : List UInt8) :
    readValue levels (b :: rest) = readScalar b rest := by
  cases levels with
  | zero =>
      have hopen : ¬ (b = 0x5B || b = 0x7B) = true := by simp [hbracket, hbrace]
      rw [readValue, skipSpace_cons hspace]
      exact if_neg hopen
  | succ levels =>
      rw [readValue, skipSpace_cons hspace]
      exact (if_neg hbracket).trans (if_neg hbrace)

theorem readValue_boolean (b : Bool) (levels : Nat) (rest : List UInt8) :
    readValue levels (encode (booleanText b) ++ rest) = .ok (boolean b, rest) := by
  cases b
  · exact readValue_scalar (by decide) (by decide) (by decide) levels _
  · exact readValue_scalar (by decide) (by decide) (by decide) levels _

theorem readValue_null (levels : Nat) (rest : List UInt8) :
    readValue levels (encode nullText ++ rest) = .ok (null, rest) :=
  readValue_scalar (by decide) (by decide) (by decide) levels _

theorem readValue_string (s : String) (levels : Nat) (rest : List UInt8) :
    readValue levels (encode (quote s) ++ rest) = .ok (string s, rest) := by
  have hscalar : ∀ text, readScalar 0x22 text = (readString text).map string := fun _ => rfl
  rw [encode_quote_append, readValue_scalar (by decide) (by decide) (by decide), hscalar,
    readString_escapeChars]
  rfl

theorem ne_of_isDigit {b c : UInt8} (hb : isDigit b = true) (hc : isDigit c = false) : b ≠ c := by
  rintro rfl
  exact absurd hb (Bool.eq_false_iff.mp hc)

theorem isSpace_of_isDigit {b : UInt8} (hb : isDigit b = true) : isSpace b = false := by
  simp only [isSpace, Bool.or_eq_false_iff, decide_eq_false_iff_not]
  exact ⟨⟨⟨ne_of_isDigit hb (by decide), ne_of_isDigit hb (by decide)⟩,
    ne_of_isDigit hb (by decide)⟩, ne_of_isDigit hb (by decide)⟩

theorem readScalar_minus (rest : List UInt8) :
    readScalar 0x2D rest = (readNumber true rest).map number :=
  rfl

theorem readScalar_digit {b : UInt8} (hb : isDigit b = true) (rest : List UInt8) :
    readScalar b rest = (readNumber false (b :: rest)).map number := by
  have hne : ∀ {c}, isDigit c = false → b ≠ c := ne_of_isDigit hb
  rw [readScalar, if_neg (hne (by decide)), if_neg (hne (by decide)), if_neg (hne (by decide)),
    if_neg (hne (by decide)), if_neg (hne (by decide)), if_pos hb]

/-! ### Numbers -/

theorem eq_of_readWord {v w : Json} {word text left : List UInt8}
    (h : readWord v word text = .ok (w, left)) : w = v := by
  induction word generalizing text with
  | nil => exact (Prod.mk.inj (Except.ok.inj h)).1.symm
  | cons c word ih =>
      cases text with
      | nil => cases h
      | cons b text =>
          rw [readWord] at h
          split at h
          · exact ih h
          · cases h

theorem readScalar_eq_number {b : UInt8} {rest left : List UInt8} {n : Number}
    (h : readScalar b rest = .ok (number n, left)) :
    b = 0x2D ∧ readNumber true rest = .ok (n, left) ∨
      isDigit b = true ∧ readNumber false (b :: rest) = .ok (n, left) := by
  rw [readScalar] at h
  split at h
  · cases eq_of_readWord h
  · split at h
    · cases eq_of_readWord h
    · split at h
      · cases eq_of_readWord h
      · split at h
        · obtain ⟨s, _, hs⟩ := exists_of_map_eq_ok h
          cases hs
        · split at h
          · next hminus =>
              obtain ⟨_, hread, hn⟩ := exists_of_map_eq_ok h
              exact .inl ⟨hminus, number.inj hn ▸ hread⟩
          · split at h
            · next hdigit =>
                obtain ⟨_, hread, hn⟩ := exists_of_map_eq_ok h
                exact .inr ⟨hdigit, number.inj hn ▸ hread⟩
            · cases h

end Json

namespace Number

open Json

/-- What is read of the text of the number is this number, and nothing of the text is left. -/
def IsKept (n : Number) : Prop :=
  ∃ b rest, encode n.text = b :: rest ∧ readScalar b rest = .ok (number n, [])

variable {n : Number}

theorem IsWord.isKept (hn : n.IsWord) : n.IsKept := by
  cases n with
  | float x => exact absurd hn id
  | integer k =>
      obtain ⟨hlow, hhigh⟩ := isWord_integer_iff.mp hn
      by_cases hnegative : k < 0
      · have htext : encode (integer k).text = 0x2D :: encode (Nat.toDigits 10 k.natAbs) := by
          rw [text, integerText, if_pos hnegative]
          rfl
        have hvalue : -(k.natAbs : Int) = k := by omega
        refine ⟨_, _, htext, ?_⟩
        rw [readScalar_minus, readNumber_negative (by omega) (by omega), hvalue]
        rfl
      · have htext : (integer k).text = Nat.toDigits 10 k.natAbs := if_neg hnegative
        have hvalue : (k.natAbs : Int) = k := by omega
        obtain ⟨b, digits, hdigits, hb⟩ := exists_isDigit_toDigits k.natAbs
        refine ⟨b, digits, htext ▸ hdigits, ?_⟩
        rw [readScalar_digit hb, ← hdigits, readNumber_natural (by omega), hvalue]
        rfl

theorem isKept_negativeZero : (float (Binary64.zero true)).IsKept := by
  have htext : encode (float (Binary64.zero true)).text = [0x2D, 0x30, 0x2E, 0x30] := by
    decide +kernel
  have hinteger : readNumber true [0x30, 0x2E, 0x30] = readFraction true 0 (0 : Nat) [0x30] := by
    rw [readNumber, if_pos rfl, if_neg (by decide), readAfterInteger, afterPoint?, if_pos rfl]
  have hgather : gather significandLimit 0 [0x30] = (0, 1, []) := rfl
  have hzero : assemble? true 0 ((0 : Nat) - (1 : Nat)) = some (Binary64.zero true) := by
    decide +kernel
  refine ⟨_, _, htext, ?_⟩
  rw [readScalar_minus, hinteger, readFraction, hgather]
  dsimp only
  rw [if_neg (by decide), if_neg Nat.one_ne_zero, readAfterDigits, afterExponentMark?]
  dsimp only
  rw [floatNumber, hzero]
  rfl

theorem IsKept.starts (hn : n.IsKept) : Starts 0x5D (encode n.text) := by
  obtain ⟨b, more, htext, hscalar⟩ := hn
  refine ⟨b, more, htext, ?_⟩
  rcases readScalar_eq_number hscalar with ⟨hb, _⟩ | ⟨hb, _⟩
  · rw [hb]
    exact ⟨by decide, by decide⟩
  · exact ⟨isSpace_of_isDigit hb, ne_of_isDigit hb (by decide)⟩

theorem IsKept.readValue (hn : n.IsKept) (levels : Nat) {rest : List UInt8}
    (hrest : EndsNumber rest) :
    readValue levels (encode n.text ++ rest) = .ok (number n, rest) := by
  obtain ⟨b, more, htext, hscalar⟩ := hn
  rw [htext, List.cons_append]
  rcases readScalar_eq_number hscalar with ⟨rfl, hread⟩ | ⟨hb, hread⟩
  · rw [readValue_scalar (by decide) (by decide) (by decide), readScalar_minus,
      readsAlone_readNumber true hread hrest]
    rfl
  · rw [readValue_scalar (isSpace_of_isDigit hb) (ne_of_isDigit hb (by decide))
      (ne_of_isDigit hb (by decide)), readScalar_digit hb, ← List.cons_append,
      readsAlone_readNumber false hread hrest]
    rfl

end Number

end RamlSchema
