import Mathlib.Data.List.Induction
import RamlSchema.Proofs.Json.Reading
import RamlSchema.Proofs.Text.Boundaries

/-!
# What a reader takes from a text

Every step of reading that succeeds has taken whole characters from the front of its text. Outside
of strings this is so because only ASCII is accepted there. Inside a string the octets are looked at
when it closes, and then those that escapes stand for are among them: as an escape stands for whole
characters and is itself ASCII, the octets of the text are well-formed if those of the string are.
-/

namespace RamlSchema

open Utf8

/-- Whole characters stand between the beginning of a text and what is left of it. -/
def Leaves (text rest : List UInt8) : Prop :=
  ∃ front, IsText front ∧ text = front ++ rest

theorem Leaves.refl (text : List UInt8) : Leaves text text :=
  ⟨[], isText_nil, rfl⟩

theorem Leaves.trans {a b c : List UInt8} (hab : Leaves a b) (hbc : Leaves b c) : Leaves a c := by
  obtain ⟨front, hfront, rfl⟩ := hab
  obtain ⟨middle, hmiddle, rfl⟩ := hbc
  exact ⟨front ++ middle, hfront.append hmiddle, (List.append_assoc _ _ _).symm⟩

theorem Leaves.cons {b : UInt8} {text rest : List UInt8} (hb : b.toNat < 0x80)
    (h : Leaves text rest) : Leaves (b :: text) rest :=
  Leaves.trans ⟨[b], isText_octet hb, rfl⟩ h

/-! ### Steps of reading -/

/-- A step on a text takes whole characters from its front, if it does not fail. -/
def Read.Takes {α : Type} (text : List UInt8) (step : Read α) : Prop :=
  ∀ a rest, step = .ok (a, rest) → Leaves text rest

namespace Read

variable {α β : Type} {text rest : List UInt8}

theorem takes_error (text : List UInt8) (fault : Fault) :
    Takes text (.error fault : Read α) := by
  intro a rest h
  cases h

theorem takes_ok (a : α) (h : Leaves text rest) : Takes text (.ok (a, rest)) := by
  intro b rest' hok
  cases hok
  exact h

theorem Takes.after {step : Read α} (hstep : Takes rest step) (h : Leaves text rest) :
    Takes text step :=
  fun a left hok => h.trans (hstep a left hok)

theorem Takes.cons {step : Read α} {b : UInt8} (hstep : Takes text step) (hb : b.toNat < 0x80) :
    Takes (b :: text) step :=
  hstep.after (Leaves.cons hb (Leaves.refl text))

theorem Takes.andThen {step : Read α} {next : α → List UInt8 → Read β} (hstep : Takes text step)
    (hnext : ∀ a rest, Takes rest (next a rest)) : Takes text (step.andThen next) := by
  cases step with
  | error fault => exact takes_error text fault
  | ok found =>
      obtain ⟨a, rest⟩ := found
      exact (hnext a rest).after (hstep a rest rfl)

theorem Takes.map {step : Read α} {f : α → β} (hstep : Takes text step) :
    Takes text (step.map f) :=
  hstep.andThen fun a rest => takes_ok (f a) (Leaves.refl rest)

end Read

namespace Json

open Read

/-! ### Strings -/

theorem ascii_of_hexValue? {b : UInt8} {n : Nat} (h : hexValue? b = some n) : b.toNat < 0x80 := by
  simp only [hexValue?, Bool.and_eq_true, decide_eq_true_eq, UInt8.le_iff_toNat_le,
    UInt8.reduceToNat] at h
  grind

theorem ascii_of_simpleEscape? {b octet : UInt8} (h : simpleEscape? b = some octet) :
    b.toNat < 0x80 ∧ octet.toNat < 0x80 := by
  simp only [simpleEscape?, Bool.or_eq_true, decide_eq_true_eq] at h
  split at h
  · next hself =>
      obtain rfl := Option.some.inj h
      rcases hself with (rfl | rfl) | rfl <;> decide
  · repeat' split at h
    all_goals first
      | cases h
        done
      | next hb =>
          subst hb
          cases h
          decide

theorem hexNumber?_concat (digits : List UInt8) (b : UInt8) :
    hexNumber? (digits ++ [b]) = do return (← hexNumber? digits) * 16 + (← hexValue? b) := by
  rw [hexNumber?, List.foldl_append]
  rfl

theorem ascii_of_hexNumber? {digits : List UInt8} {n : Nat} (h : hexNumber? digits = some n) :
    ∀ b ∈ digits, b.toNat < 0x80 := by
  induction digits using List.reverseRecOn generalizing n with
  | nil => exact List.forall_mem_nil _
  | append_singleton digits b ih =>
      rw [hexNumber?_concat, Option.bind_eq_bind, Option.bind_eq_some_iff] at h
      obtain ⟨m, hdigits, hlast⟩ := h
      obtain ⟨k, hk, _⟩ := Option.bind_eq_some_iff.mp hlast
      exact List.forall_mem_append.mpr
        ⟨ih hdigits, List.forall_mem_singleton.mpr (ascii_of_hexValue? hk)⟩

/-- Four digits that are accepted are ASCII. They stand for a character, or for the first half of
one and for nothing yet. -/
theorem completeHex_eq_ok {high : Option Nat} {digits octets : List UInt8} {next : StringState}
    (h : completeHex high digits = .ok (octets, next)) :
    (∀ b ∈ digits, b.toNat < 0x80) ∧
      ((∃ c, octets = encodeChar c ∧ next = .plain) ∨
        octets = [] ∧ ∃ n, next = .pairBackslash n) := by
  unfold completeHex at h
  cases hn : hexNumber? digits with
  | none =>
      rw [hn] at h
      cases h
  | some n =>
      rw [hn] at h
      refine ⟨ascii_of_hexNumber? hn, ?_⟩
      cases high with
      | none =>
          dsimp only at h
          split at h
          · cases h
          · split at h
            · obtain ⟨rfl, rfl⟩ := Prod.mk.inj (Except.ok.inj h)
              exact .inr ⟨rfl, n, rfl⟩
            · obtain ⟨rfl, rfl⟩ := Prod.mk.inj (Except.ok.inj h)
              exact .inl ⟨_, rfl, rfl⟩
      | some high =>
          dsimp only at h
          split at h
          · obtain ⟨rfl, rfl⟩ := Prod.mk.inj (Except.ok.inj h)
            exact .inl ⟨_, rfl, rfl⟩
          · cases h

/-- The octets `taken` from a text are well-formed if those that they stand for are, which are kept
last one first in `done`. Between characters the same holds with any octets behind both. -/
def StringState.Keeps : StringState → (taken done : List UInt8) → Prop
  | .plain, taken, done => ∀ back, IsText (done.reverse ++ back) → IsText (taken ++ back)
  | .hex _ seen, taken, done =>
    ∃ front, taken = front ++ seen.reverse ∧ (IsText done.reverse → IsText front)
  | _, taken, done => IsText done.reverse → IsText taken

variable {taken done : List UInt8}

theorem keeps_plain_cons (h : StringState.plain.Keeps taken done) (b : UInt8) :
    StringState.plain.Keeps (taken ++ [b]) (b :: done) := by
  intro back htext
  rw [List.reverse_cons, List.append_assoc] at htext
  rw [List.append_assoc]
  exact h _ htext

theorem isText_of_keeps_plain (h : StringState.plain.Keeps taken done)
    (hdone : IsText done.reverse) : IsText taken := by
  have htaken := h [] (by rwa [List.append_nil])
  rwa [List.append_nil] at htaken

theorem keeps_plain_encodeChar (h : IsText done.reverse → IsText taken) (c : Char) :
    StringState.plain.Keeps taken ((encodeChar c).reverse ++ done) := by
  intro back htext
  rw [List.reverse_append, List.reverse_reverse, List.append_assoc] at htext
  obtain ⟨hdone, hback⟩ := isText_of_append_encodeChar htext
  exact (h hdone).append hback

theorem takes_closeString (h : StringState.plain.Keeps taken done) (rest : List UInt8) :
    Takes (taken ++ [0x22] ++ rest) (closeString done rest) := by
  unfold closeString
  split
  · next cs hdecoded =>
      have hdone : IsText done.reverse := ⟨cs, eq_encode_of_decodeStart hdecoded⟩
      exact takes_ok _ ⟨_, (isText_of_keeps_plain h hdone).concat (by decide), rfl⟩
  · exact takes_error _ _

/-- Reading a string goes on from octets that were taken before. -/
theorem takes_readStringFrom {state : StringState} (h : state.Keeps taken done)
    (text : List UInt8) : Takes (taken ++ text) (readStringFrom state done text) := by
  induction text generalizing state taken done with
  | nil =>
      rw [readStringFrom.eq_def]
      exact takes_error _ _
  | cons b rest ih =>
      rw [List.append_cons]
      cases state with
      | plain =>
          rw [readStringFrom]
          repeat' split
          · next hmark =>
              subst hmark
              exact takes_closeString h rest
          · next hbackslash =>
              subst hbackslash
              exact ih (fun hdone => (isText_of_keeps_plain h hdone).concat (by decide))
          · exact takes_error _ _
          · exact ih (keeps_plain_cons h b)
      | escape =>
          rw [readStringFrom]
          repeat' split
          · next hu =>
              subst hu
              exact ih ⟨taken ++ [0x75], by simp, fun hdone => (h hdone).concat (by decide)⟩
          · next octet hescape =>
              obtain ⟨hb, hoctet⟩ := ascii_of_simpleEscape? hescape
              have hkeeps := keeps_plain_encodeChar
                (fun hdone => (h hdone).concat hb) (Char.ofNat octet.toNat)
              rw [encodeChar_octet hoctet] at hkeeps
              exact ih hkeeps
          · exact takes_error _ _
      | hex high seen =>
          obtain ⟨front, rfl, hfront⟩ := h
          rw [readStringFrom]
          split
          · exact ih ⟨front, by simp, hfront⟩
          · split
            · next octets next hdigits =>
                obtain ⟨hascii, hnext⟩ := completeHex_eq_ok hdigits
                have htaken : front ++ seen.reverse ++ [b] = front ++ (b :: seen).reverse := by
                  rw [List.reverse_cons, List.append_assoc]
                have hall : IsText done.reverse → IsText (front ++ seen.reverse ++ [b]) :=
                  fun hdone => htaken ▸ (hfront hdone).append (isText_octets hascii)
                rcases hnext with ⟨c, rfl, rfl⟩ | ⟨rfl, n, rfl⟩
                · exact ih (keeps_plain_encodeChar hall c)
                · exact ih hall
            · exact takes_error _ _
      | pairBackslash high =>
          rw [readStringFrom]
          split
          · next hbackslash =>
              subst hbackslash
              exact ih (fun hdone => (h hdone).concat (by decide))
          · exact takes_error _ _
      | pairLetter high =>
          rw [readStringFrom]
          split
          · next hu =>
              subst hu
              exact ih ⟨taken ++ [0x75], by simp, fun hdone => (h hdone).concat (by decide)⟩
          · exact takes_error _ _

theorem takes_readString (text : List UInt8) : Takes text (readString text) := by
  have hstart : StringState.plain.Keeps [] [] := fun _ htext => htext
  exact takes_readStringFrom hstart text

/-! ### Numbers -/

theorem ascii_of_isDigit {b : UInt8} (h : isDigit b = true) : b.toNat < 0x80 := by
  rw [isDigit, Bool.and_eq_true, decide_eq_true_eq, decide_eq_true_eq,
    UInt8.le_iff_toNat_le, UInt8.le_iff_toNat_le] at h
  exact Nat.lt_of_le_of_lt h.2 (by decide)

theorem leaves_gather (limit n : Nat) (text : List UInt8) :
    Leaves text (gather limit n text).2.2 := by
  induction text generalizing n with
  | nil => exact .refl _
  | cons b rest ih =>
      rw [gather]
      split
      · next hmore =>
          rw [Bool.and_eq_true] at hmore
          exact (ih _).cons (ascii_of_isDigit hmore.1)
      · exact .refl _

theorem leaves_skipDigits (text : List UInt8) : Leaves text (skipDigits text).2 := by
  induction text with
  | nil => exact .refl _
  | cons b rest ih =>
      rw [skipDigits]
      split
      · next hdigit => exact ih.cons (ascii_of_isDigit hdigit)
      · exact .refl _

theorem leaves_exponentSign (text : List UInt8) : Leaves text (exponentSign text).2 := by
  cases text with
  | nil => exact .refl _
  | cons b rest =>
      rw [exponentSign]
      split
      · next hplus => exact (Leaves.refl rest).cons (hplus ▸ by decide)
      · split
        · next hminus => exact (Leaves.refl rest).cons (hminus ▸ by decide)
        · exact .refl _

theorem leaves_afterPoint {text rest : List UInt8} (h : afterPoint? text = some rest) :
    Leaves text rest := by
  cases text with
  | nil => cases h
  | cons b more =>
      rw [afterPoint?] at h
      split at h
      · next hpoint =>
          obtain rfl := Option.some.inj h
          exact (Leaves.refl more).cons (hpoint ▸ by decide)
      · cases h

theorem leaves_afterExponentMark {text rest : List UInt8}
    (h : afterExponentMark? text = some rest) : Leaves text rest := by
  cases text with
  | nil => cases h
  | cons b more =>
      simp only [afterExponentMark?, Bool.or_eq_true, decide_eq_true_eq] at h
      split at h
      · next hmark =>
          obtain rfl := Option.some.inj h
          exact (Leaves.refl more).cons (by rcases hmark with rfl | rfl <;> decide)
      · cases h

variable (negative : Bool) (significand : Nat) (exponent : Int) (text : List UInt8)

theorem takes_floatNumber : Takes text (floatNumber negative significand exponent text) := by
  unfold floatNumber
  split
  · exact takes_ok _ (.refl text)
  · exact takes_error _ _

theorem takes_readExponent : Takes text (readExponent negative significand exponent text) := by
  unfold readExponent
  have hsign := leaves_exponentSign text
  dsimp only
  split
  · exact takes_error _ _
  · next b rest hdigits =>
      rw [hdigits] at hsign
      split
      · exact takes_error _ _
      · next hdigit =>
          have hb := ascii_of_isDigit (by simpa using hdigit)
          have hrest := hsign.trans
            ((leaves_gather exponentLimit (digitValue b) rest).cons hb)
          repeat' split
          · exact takes_ok _ (hrest.trans (leaves_skipDigits _))
          · exact takes_error _ _
          · exact (takes_floatNumber _ _ _ _).after hrest
          · exact (takes_floatNumber _ _ _ _).after hrest

theorem takes_readAfterDigits :
    Takes text (readAfterDigits negative significand exponent text) := by
  unfold readAfterDigits
  split
  · next rest hmark =>
      exact (takes_readExponent _ _ _ rest).after (leaves_afterExponentMark hmark)
  · exact takes_floatNumber _ _ _ _

theorem takes_readFraction : Takes text (readFraction negative significand exponent text) := by
  unfold readFraction
  have hrest := leaves_gather significandLimit significand text
  dsimp only
  split
  · exact (takes_readAfterDigits _ _ _ _).after (hrest.trans (leaves_skipDigits _))
  · split
    · exact takes_error _ _
    · exact (takes_readAfterDigits _ _ _ _).after hrest

theorem takes_integerNumber : Takes text (integerNumber negative significand text) := by
  unfold integerNumber
  repeat' split
  · exact takes_ok _ (.refl text)
  · exact takes_ok _ (.refl text)
  · exact takes_floatNumber _ _ _ _

theorem takes_readAfterInteger (dropped : Nat) :
    Takes text (readAfterInteger negative significand dropped text) := by
  unfold readAfterInteger
  split
  · next rest hpoint => exact (takes_readFraction _ _ _ rest).after (leaves_afterPoint hpoint)
  · split
    · next rest hmark =>
        exact (takes_readExponent _ _ _ rest).after (leaves_afterExponentMark hmark)
    · split
      · exact takes_integerNumber _ _ _
      · exact takes_floatNumber _ _ _ _

theorem takes_readNumber : Takes text (readNumber negative text) := by
  cases text with
  | nil => exact takes_error _ _
  | cons b rest =>
      rw [readNumber]
      split
      · next hzero =>
          subst hzero
          split
          · exact takes_error _ _
          · exact (takes_readAfterInteger _ _ _ _).cons (by decide)
      · split
        · next hdigit =>
            have hrest := (leaves_gather significandLimit (digitValue b) rest).trans
              (leaves_skipDigits _)
            exact (takes_readAfterInteger _ _ _ _).after (hrest.cons (ascii_of_isDigit hdigit))
        · exact takes_error _ _

/-! ### Values -/

theorem ascii_of_isSpace {b : UInt8} (h : isSpace b = true) : b.toNat < 0x80 := by
  simp only [isSpace, Bool.or_eq_true, decide_eq_true_eq] at h
  rcases h with ((rfl | rfl) | rfl) | rfl <;> decide

theorem leaves_skipSpace : Leaves text (skipSpace text) := by
  induction text with
  | nil => exact .refl _
  | cons b rest ih =>
      rw [skipSpace, List.dropWhile_cons]
      split
      · next hspace => exact ih.cons (ascii_of_isSpace hspace)
      · exact .refl _

variable {text}

theorem leaves_of_skipSpace {rest : List UInt8} (h : skipSpace text = rest) : Leaves text rest :=
  h ▸ leaves_skipSpace text

theorem leaves_of_mark {b : UInt8} {rest : List UInt8} (h : skipSpace text = b :: rest)
    (hb : b.toNat < 0x80) : Leaves text rest :=
  (leaves_of_skipSpace h).trans ((Leaves.refl rest).cons hb)

variable (text)

/-- The letters of a word are ASCII, and so is what is accepted for them. -/
theorem takes_readWord (v : Json) {word : List UInt8} (hword : ∀ b ∈ word, b.toNat < 0x80) :
    Takes text (readWord v word text) := by
  induction word generalizing text with
  | nil => exact takes_ok v (.refl text)
  | cons w word ih =>
      obtain ⟨hw, hword⟩ := List.forall_mem_cons.mp hword
      cases text with
      | nil => exact takes_error _ _
      | cons b rest =>
          rw [readWord]
          split
          · next hb => exact (ih rest hword).cons (hb ▸ hw)
          · exact takes_error _ _

theorem takes_readScalar (b : UInt8) : Takes (b :: text) (readScalar b text) := by
  unfold readScalar
  repeat' split
  · next hb => exact (takes_readWord text _ (by simp)).cons (hb ▸ by decide)
  · next hb => exact (takes_readWord text _ (by simp)).cons (hb ▸ by decide)
  · next hb => exact (takes_readWord text _ (by simp)).cons (hb ▸ by decide)
  · next hb => exact (takes_readString text).map.cons (hb ▸ by decide)
  · next hb => exact (takes_readNumber true text).map.cons (hb ▸ by decide)
  · exact (takes_readNumber false (b :: text)).map
  · exact takes_error _ _

theorem takes_entry {α : Type} {entry : List UInt8 → Read α} {later : List UInt8 → Read (List α)}
    (hentry : ∀ text, Takes text (entry text)) (hlater : ∀ text, Takes text (later text)) :
    Takes text ((entry text).andThen fun a rest => (later rest).map (a :: ·)) :=
  (hentry text).andThen fun _ rest => (hlater rest).map

variable {item : List UInt8 → Read Json} (hitem : ∀ text, Takes text (item text))
include hitem

theorem takes_readLaterItems (fuel : Nat) : Takes text (readLaterItems item fuel text) := by
  induction fuel generalizing text with
  | zero => exact takes_error _ _
  | succ fuel ih =>
      rw [readLaterItems]
      split
      · exact takes_error _ _
      · next b rest hb =>
          split
          · next hend => exact takes_ok _ (leaves_of_mark hb (hend ▸ by decide))
          · split
            · next hcomma =>
                have hrest := leaves_of_mark hb (hcomma ▸ by decide)
                split
                · exact takes_error _ _
                · next c more hc =>
                    split
                    · exact takes_error _ _
                    · exact (takes_entry _ hitem ih).after (hrest.trans (leaves_of_skipSpace hc))
            · exact takes_error _ _

theorem takes_readItems : Takes text (readItems item text) := by
  rw [readItems]
  split
  · exact takes_error _ _
  · next b rest hb =>
      split
      · next hend => exact takes_ok _ (leaves_of_mark hb (hend ▸ by decide))
      · have hlater := fun rest => takes_readLaterItems rest hitem text.length
        exact (takes_entry _ hitem hlater).after (leaves_of_skipSpace hb)

theorem takes_readMember : Takes text (readMember item text) := by
  cases text with
  | nil => exact takes_error _ _
  | cons b rest =>
      rw [readMember]
      split
      · next hmark =>
          refine Takes.cons ?_ (hmark ▸ by decide)
          refine (takes_readString rest).andThen fun name rest => ?_
          split
          · exact takes_error _ _
          · next c more hc =>
              split
              · next hcolon => exact (hitem more).map.after (leaves_of_mark hc (hcolon ▸ by decide))
              · exact takes_error _ _
      · exact takes_error _ _

theorem takes_readLaterMembers (fuel : Nat) : Takes text (readLaterMembers item fuel text) := by
  induction fuel generalizing text with
  | zero => exact takes_error _ _
  | succ fuel ih =>
      rw [readLaterMembers]
      split
      · exact takes_error _ _
      · next b rest hb =>
          split
          · next hend => exact takes_ok _ (leaves_of_mark hb (hend ▸ by decide))
          · split
            · next hcomma =>
                have hrest := leaves_of_mark hb (hcomma ▸ by decide)
                split
                · exact takes_error _ _
                · next c more hc =>
                    split
                    · exact takes_error _ _
                    · have hmember := fun text => takes_readMember text hitem
                      exact (takes_entry _ hmember ih).after (hrest.trans (leaves_of_skipSpace hc))
            · exact takes_error _ _

theorem takes_readMembers : Takes text (readMembers item text) := by
  rw [readMembers]
  split
  · exact takes_error _ _
  · next b rest hb =>
      split
      · next hend => exact takes_ok _ (leaves_of_mark hb (hend ▸ by decide))
      · have hmember := fun text => takes_readMember text hitem
        have hlater := fun rest => takes_readLaterMembers rest hitem text.length
        exact (takes_entry _ hmember hlater).after (leaves_of_skipSpace hb)

omit hitem

theorem takes_readValue (levels : Nat) : Takes text (readValue levels text) := by
  induction levels generalizing text with
  | zero =>
      rw [readValue]
      split
      · exact takes_error _ _
      · next b rest hb =>
          split
          · exact takes_error _ _
          · exact (takes_readScalar rest b).after (leaves_of_skipSpace hb)
  | succ levels ih =>
      rw [readValue]
      split
      · exact takes_error _ _
      · next b rest hb =>
          repeat' split
          · next hopen =>
              exact (takes_readItems rest ih).map.after (leaves_of_mark hb (hopen ▸ by decide))
          · next hopen =>
              exact (takes_readMembers rest ih).map.after (leaves_of_mark hb (hopen ▸ by decide))
          · exact (takes_readScalar rest b).after (leaves_of_skipSpace hb)

/-- **Octets that are read as JSON** are the octets of a text. -/
theorem isText_of_ofOctets {v : Json} (h : ofOctets text = .ok v) : IsText text := by
  obtain ⟨rest, hvalue, hspace⟩ := exists_readValue_of_ofOctets h
  obtain ⟨front, hfront, hrest⟩ :=
    (takes_readValue text _ v rest hvalue).trans (leaves_of_skipSpace hspace)
  rwa [hrest, List.append_nil]

end Json

end RamlSchema
