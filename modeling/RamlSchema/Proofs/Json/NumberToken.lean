import RamlSchema.Json.NumberToken
import RamlSchema.Proofs.Text.Utf8

/-!
# Numbers read back

Where a number ends is seen from what stands behind it, so what is read of a number alone is read of
it wherever something stands that does not continue it. The decimal digits of a number are gathered
to this number as long as it stays below the limit, so an integer of 64 bits is read from its digits
exactly.
-/

namespace RamlSchema

/-- An integer that fits 64 bits, with a sign or without one. -/
def Number.IsWord : Number → Prop
  | .integer n => -0x8000000000000000 ≤ n ∧ n < 0x10000000000000000
  | .float _ => False

instance : DecidablePred Number.IsWord
  | .integer n =>
    inferInstanceAs (Decidable (-0x8000000000000000 ≤ n ∧ n < 0x10000000000000000))
  | .float _ => inferInstanceAs (Decidable False)

theorem Number.isWord_integer_iff {k : Int} :
    (integer k).IsWord ↔ -(Json.negativeLimit : Int) ≤ k ∧ k < (Json.significandLimit : Int) :=
  Iff.rfl

namespace Json

open Utf8

/-! ### What stands behind a number -/

/-- What follows does not continue a number: it begins with no digit, no point and no mark of an
exponent. -/
def EndsNumber : List UInt8 → Prop
  | [] => True
  | b :: _ => isDigit b = false ∧ b ≠ 0x2E ∧ b ≠ 0x65 ∧ b ≠ 0x45

section

variable {rest : List UInt8} (hrest : EndsNumber rest)
include hrest

theorem EndsNumber.digitNext_append (text : List UInt8) :
    digitNext (text ++ rest) = digitNext text := by
  cases text with
  | nil =>
      cases rest with
      | nil => rfl
      | cons b rest => exact hrest.1
  | cons b text => rfl

theorem EndsNumber.afterPoint?_append (text : List UInt8) :
    afterPoint? (text ++ rest) = (afterPoint? text).map (· ++ rest) := by
  cases text with
  | nil =>
      cases rest with
      | nil => rfl
      | cons b rest => exact if_neg hrest.2.1
  | cons b text =>
      rw [List.cons_append, afterPoint?, afterPoint?]
      split
      · rfl
      · rfl

theorem EndsNumber.afterExponentMark?_append (text : List UInt8) :
    afterExponentMark? (text ++ rest) = (afterExponentMark? text).map (· ++ rest) := by
  cases text with
  | nil =>
      cases rest with
      | nil => rfl
      | cons b rest =>
          obtain ⟨_, _, hlower, hupper⟩ := hrest
          exact if_neg (by simp [hlower, hupper])
  | cons b text =>
      rw [List.cons_append, afterExponentMark?, afterExponentMark?]
      split
      · rfl
      · rfl

theorem EndsNumber.gather_append (limit n : Nat) (text : List UInt8) :
    gather limit n (text ++ rest) =
      ((gather limit n text).1, (gather limit n text).2.1, (gather limit n text).2.2 ++ rest) := by
  induction text generalizing n with
  | nil =>
      cases rest with
      | nil => rfl
      | cons b rest =>
          rw [List.nil_append, gather, gather, hrest.1, Bool.false_and, if_neg Bool.false_ne_true,
            List.nil_append]
  | cons b text ih =>
      rw [List.cons_append, gather, gather]
      split
      · rw [ih]
      · rfl

theorem EndsNumber.skipDigits_append (text : List UInt8) :
    skipDigits (text ++ rest) = ((skipDigits text).1, (skipDigits text).2 ++ rest) := by
  induction text with
  | nil =>
      cases rest with
      | nil => rfl
      | cons b rest =>
          rw [List.nil_append, skipDigits, skipDigits, if_neg (Bool.eq_false_iff.mp hrest.1),
            List.nil_append]
  | cons b text ih =>
      rw [List.cons_append, skipDigits, skipDigits]
      split
      · rw [ih]
      · rfl

end

/-! ### A number with something behind it -/

/-- What is read of a text is read of it in front of whatever ends a number. -/
def ReadsAlone (read : List UInt8 → Read Number) : Prop :=
  ∀ {text left : List UInt8} {n : Number}, read text = .ok (n, left) →
    ∀ {rest : List UInt8}, EndsNumber rest → read (text ++ rest) = .ok (n, left ++ rest)

theorem readsAlone_floatNumber (negative : Bool) (significand : Nat) (exponent : Int) :
    ReadsAlone (floatNumber negative significand exponent) := by
  intro text left n h rest _
  rw [floatNumber] at h ⊢
  split at h
  · obtain ⟨rfl, rfl⟩ := Prod.mk.inj (Except.ok.inj h)
    rfl
  · cases h

theorem readsAlone_integerNumber (negative : Bool) (significand : Nat) :
    ReadsAlone (integerNumber negative significand) := by
  intro text left n h rest hrest
  rw [integerNumber] at h ⊢
  split at h
  · next hsign =>
      obtain ⟨rfl, rfl⟩ := Prod.mk.inj (Except.ok.inj h)
      exact if_pos hsign
  · next hsign =>
      rw [if_neg hsign]
      split at h
      · next hword =>
          obtain ⟨rfl, rfl⟩ := Prod.mk.inj (Except.ok.inj h)
          exact if_pos hword
      · next hword =>
          rw [if_neg hword]
          exact readsAlone_floatNumber negative significand 0 h hrest

theorem exponentSign_append {text : List UInt8} (htext : text ≠ []) (rest : List UInt8) :
    exponentSign (text ++ rest) = ((exponentSign text).1, (exponentSign text).2 ++ rest) := by
  cases text with
  | nil => exact absurd rfl htext
  | cons b text =>
      rw [List.cons_append, exponentSign, exponentSign]
      split
      · rfl
      · split
        · rfl
        · rfl

theorem readsAlone_readExponent (negative : Bool) (significand : Nat) (exponent : Int) :
    ReadsAlone (readExponent negative significand exponent) := by
  intro text left n h rest hrest
  have htext : text ≠ [] := by
    rintro rfl
    cases h
  rw [readExponent] at h ⊢
  rw [exponentSign_append htext]
  cases hsign : exponentSign text with
  | mk minus digits =>
      rw [hsign] at h
      cases digits with
      | nil => cases h
      | cons b digits =>
          dsimp only [List.cons_append] at h ⊢
          rw [hrest.gather_append]
          split at h
          · cases h
          · next hdigit =>
              rw [if_neg hdigit]
              dsimp only at h ⊢
              rw [hrest.digitNext_append]
              split at h
              · next hlong =>
                  rw [if_pos hlong]
                  split at h
                  · next hzero =>
                      obtain ⟨rfl, rfl⟩ := Prod.mk.inj (Except.ok.inj h)
                      rw [if_pos hzero, hrest.skipDigits_append]
                  · cases h
              · next hshort =>
                  rw [if_neg hshort]
                  exact readsAlone_floatNumber _ _ _ h hrest

theorem readsAlone_readAfterDigits (negative : Bool) (significand : Nat) (exponent : Int) :
    ReadsAlone (readAfterDigits negative significand exponent) := by
  intro text left n h rest hrest
  rw [readAfterDigits] at h ⊢
  rw [hrest.afterExponentMark?_append]
  cases hmark : afterExponentMark? text with
  | some more =>
      rw [hmark] at h
      exact readsAlone_readExponent _ _ _ h hrest
  | none =>
      rw [hmark] at h
      exact readsAlone_floatNumber _ _ _ h hrest

theorem readsAlone_readFraction (negative : Bool) (significand : Nat) (exponent : Int) :
    ReadsAlone (readFraction negative significand exponent) := by
  intro text left n h rest hrest
  rw [readFraction] at h ⊢
  rw [hrest.gather_append]
  dsimp only at h ⊢
  rw [hrest.digitNext_append, hrest.skipDigits_append]
  split at h
  · next hdigit =>
      rw [if_pos hdigit]
      exact readsAlone_readAfterDigits _ _ _ h hrest
  · next hdigit =>
      rw [if_neg hdigit]
      split at h
      · cases h
      · next htaken =>
          rw [if_neg htaken]
          exact readsAlone_readAfterDigits _ _ _ h hrest

theorem readsAlone_readAfterInteger (negative : Bool) (significand dropped : Nat) :
    ReadsAlone (readAfterInteger negative significand dropped) := by
  intro text left n h rest hrest
  rw [readAfterInteger] at h ⊢
  rw [hrest.afterPoint?_append, hrest.afterExponentMark?_append]
  cases hpoint : afterPoint? text with
  | some more =>
      rw [hpoint] at h
      exact readsAlone_readFraction _ _ _ h hrest
  | none =>
      rw [hpoint] at h
      cases hmark : afterExponentMark? text with
      | some more =>
          rw [hmark] at h
          exact readsAlone_readExponent _ _ _ h hrest
      | none =>
          rw [hmark] at h
          dsimp only [Option.map_none] at h ⊢
          split at h
          · next hdropped =>
              rw [if_pos hdropped]
              exact readsAlone_integerNumber _ _ h hrest
          · next hdropped =>
              rw [if_neg hdropped]
              exact readsAlone_floatNumber _ _ _ h hrest

/-- A number is read in front of other tokens as it is read alone. -/
theorem readsAlone_readNumber (negative : Bool) : ReadsAlone (readNumber negative) := by
  intro text left n h rest hrest
  cases text with
  | nil => cases h
  | cons b text =>
      rw [readNumber] at h
      rw [List.cons_append, readNumber, hrest.digitNext_append, hrest.gather_append]
      split at h
      · next hzero =>
          rw [if_pos hzero]
          split at h
          · cases h
          · next hdigit =>
              rw [if_neg hdigit]
              exact readsAlone_readAfterInteger _ _ _ h hrest
      · next hzero =>
          rw [if_neg hzero]
          split at h
          · next hdigit =>
              rw [if_pos hdigit]
              dsimp only at h ⊢
              rw [hrest.skipDigits_append]
              exact readsAlone_readAfterInteger _ _ _ h hrest
          · cases h

/-! ### Gathering digits -/

/-- The number that digits make behind those of another one. -/
def appendDigits (n : Nat) (digits : List UInt8) : Nat :=
  digits.foldl (fun n b => n * 10 + digitValue b) n

theorem appendDigits_concat (n : Nat) (digits : List UInt8) (d : UInt8) :
    appendDigits n (digits ++ [d]) = appendDigits n digits * 10 + digitValue d :=
  List.foldl_append

theorem le_appendDigits (n : Nat) (digits : List UInt8) : n ≤ appendDigits n digits := by
  induction digits generalizing n with
  | nil => exact Nat.le_refl n
  | cons b digits ih =>
      have hmore : n * 10 + digitValue b ≤ appendDigits n (b :: digits) := ih _
      omega

theorem gather_digits {limit n : Nat} {digits : List UInt8}
    (hdigits : ∀ b ∈ digits, isDigit b = true) (hlimit : appendDigits n digits < limit) :
    gather limit n digits = (appendDigits n digits, digits.length, []) := by
  induction digits generalizing n with
  | nil => rfl
  | cons b digits ih =>
      obtain ⟨hb, hdigits⟩ := List.forall_mem_cons.mp hdigits
      have hlt : n * 10 + digitValue b < limit :=
        Nat.lt_of_le_of_lt (le_appendDigits _ digits) hlimit
      rw [gather, hb, decide_eq_true hlt, if_pos (by rfl), ih hdigits hlimit]
      rfl

theorem isDigit_digitChar {n : Nat} (hn : n < 10) :
    ∃ b, encodeChar (Nat.digitChar n) = [b] ∧ isDigit b = true ∧ digitValue b = n ∧
      (0 < n → b ≠ 0x30) := by
  have hall : ∀ n < 10,
      encodeChar (Nat.digitChar n) = [(0x30 + n).toUInt8] ∧ isDigit (0x30 + n).toUInt8 = true ∧
        digitValue (0x30 + n).toUInt8 = n ∧ (0 < n → (0x30 + n).toUInt8 ≠ 0x30) := by decide
  exact ⟨_, hall n hn⟩

/-- The digits of a positive number do not begin with a zero, and make this number. -/
theorem exists_encode_toDigits {n : Nat} (hn : 0 < n) :
    ∃ b digits, encode (Nat.toDigits 10 n) = b :: digits ∧ b ≠ 0x30 ∧
      (∀ d ∈ b :: digits, isDigit d = true) ∧ appendDigits 0 (b :: digits) = n := by
  induction n using Nat.strongRecOn with
  | ind n ih =>
      by_cases hlast : n < 10
      · obtain ⟨b, hb, hdigit, hvalue, hzero⟩ := isDigit_digitChar hlast
        refine ⟨b, [], ?_, hzero hn, by simpa using hdigit, ?_⟩
        · rw [Nat.toDigits_of_lt_base hlast, encode_cons, hb]
          rfl
        · rw [appendDigits, List.foldl_cons, hvalue, Nat.zero_mul, Nat.zero_add]
          rfl
      · obtain ⟨b, digits, hdigits, hzero, hall, hnumber⟩ := ih (n / 10) (by omega) (by omega)
        obtain ⟨d, hd, hdigit, hvalue, _⟩ := isDigit_digitChar (Nat.mod_lt n (by decide : 0 < 10))
        refine ⟨b, digits ++ [d], ?_, hzero, ?_, ?_⟩
        · rw [Nat.toDigits_of_base_le (by decide) (Nat.not_lt.mp hlast), encode_append, hdigits,
            encode_cons, hd]
          rfl
        · intro x hx
          rw [← List.cons_append, List.mem_append, List.mem_singleton] at hx
          rcases hx with hx | rfl
          · exact hall x hx
          · exact hdigit
        · rw [← List.cons_append, appendDigits_concat, hnumber, hvalue]
          omega

theorem exists_isDigit_toDigits (n : Nat) :
    ∃ b digits, encode (Nat.toDigits 10 n) = b :: digits ∧ isDigit b = true := by
  cases Nat.eq_zero_or_pos n with
  | inl hzero =>
      rw [hzero]
      exact ⟨0x30, [], rfl, rfl⟩
  | inr hpos =>
      obtain ⟨b, digits, hdigits, _, hall, _⟩ := exists_encode_toDigits hpos
      exact ⟨b, digits, hdigits, hall b List.mem_cons_self⟩

/-- The digits of a number below the limit are read as this number. -/
theorem readNumber_toDigits {n : Nat} (hn : n < significandLimit) (negative : Bool) :
    readNumber negative (encode (Nat.toDigits 10 n)) = integerNumber negative n [] := by
  cases Nat.eq_zero_or_pos n with
  | inl hzero =>
      rw [hzero]
      rfl
  | inr hpos =>
      obtain ⟨b, digits, hdigits, hzero, hall, hnumber⟩ := exists_encode_toDigits hpos
      obtain ⟨hb, hall⟩ := List.forall_mem_cons.mp hall
      have hmore : appendDigits (digitValue b) digits = n := by
        rw [← hnumber, appendDigits, appendDigits, List.foldl_cons, Nat.zero_mul, Nat.zero_add]
      rw [hdigits, readNumber, if_neg hzero, if_pos hb, gather_digits hall (hmore.symm ▸ hn), hmore]
      rfl

theorem readNumber_natural {n : Nat} (hn : n < significandLimit) :
    readNumber false (encode (Nat.toDigits 10 n)) = .ok (.integer n, []) :=
  readNumber_toDigits hn false

theorem readNumber_negative {n : Nat} (hpos : 0 < n) (hn : n ≤ negativeLimit) :
    readNumber true (encode (Nat.toDigits 10 n)) = .ok (.integer (-n), []) := by
  have hlimit : n < significandLimit := Nat.lt_of_le_of_lt hn (by decide)
  rw [readNumber_toDigits hlimit, integerNumber, Bool.not_true, if_neg Bool.false_ne_true,
    decide_eq_true hpos, decide_eq_true hn, if_pos (by rfl)]

end Json

end RamlSchema
