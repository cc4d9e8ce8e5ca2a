import RamlSchema.Json.Reader
import RamlSchema.Proofs.Json.NumberToken
import RamlSchema.Proofs.Json.Tree

/-!
# What is read from a text

No text yields an object with two members of one name, a nesting beyond the levels that are allowed,
or an integer of more than 64 bits. Every reader is built from smaller ones with `andThen` and
`map`, so a property of what it yields follows from those of its parts.
-/

namespace RamlSchema

/-- Whatever a step of reading yields has a property; a fault yields nothing. -/
def Read.Yields {α : Type} (p : α → Prop) (step : Read α) : Prop :=
  ∀ a rest, step = .ok (a, rest) → p a

namespace Read

variable {α β : Type} {p : α → Prop} {q : β → Prop}

theorem yields_error (fault : Fault) : Yields p (.error fault) := by
  intro a rest h
  cases h

theorem yields_ok {a : α} (ha : p a) (rest : List UInt8) : Yields p (.ok (a, rest)) := by
  intro b rest' h
  cases h
  exact ha

theorem yields_true (step : Read α) : Yields (fun _ => True) step := by
  intro a rest _
  trivial

theorem Yields.andThen {step : Read α} {next : α → List UInt8 → Read β} (hstep : Yields p step)
    (hnext : ∀ a, p a → ∀ rest, Yields q (next a rest)) : Yields q (step.andThen next) := by
  cases step with
  | error fault => exact yields_error fault
  | ok found =>
      obtain ⟨a, rest⟩ := found
      exact hnext a (hstep a rest rfl) rest

theorem Yields.map {step : Read α} {f : α → β} (hstep : Yields p step) (hf : ∀ a, p a → q (f a)) :
    Yields q (step.map f) :=
  hstep.andThen fun a ha rest => yields_ok (hf a ha) rest

end Read

namespace Json

open Read

/-! ### Numbers -/

theorem gather_lt {limit n : Nat} (hn : n < limit) (text : List UInt8) :
    (gather limit n text).1 < limit := by
  induction text generalizing n with
  | nil => exact hn
  | cons b rest ih =>
      rw [gather]
      split
      · next hmore =>
          rw [Bool.and_eq_true, decide_eq_true_eq] at hmore
          exact ih hmore.2
      · exact hn

/-- A number is a double, or an integer that fits 64 bits. -/
def IsWordOrFloat (n : Number) : Prop :=
  n.isIntegerLiteral = true → n.IsWord

theorem isWordOrFloat_float (x : Binary64) : IsWordOrFloat (.float x) :=
  fun h => absurd h Bool.false_ne_true

theorem yields_floatNumber (negative : Bool) (significand : Nat) (exponent : Int)
    (rest : List UInt8) :
    Yields IsWordOrFloat (floatNumber negative significand exponent rest) := by
  unfold floatNumber
  split
  · exact yields_ok (isWordOrFloat_float _) _
  · exact yields_error _

theorem yields_readExponent (negative : Bool) (significand : Nat) (exponent : Int)
    (text : List UInt8) :
    Yields IsWordOrFloat (readExponent negative significand exponent text) := by
  unfold readExponent
  dsimp only
  repeat' split
  · exact yields_error _
  · exact yields_error _
  · exact yields_ok (isWordOrFloat_float _) _
  · exact yields_error _
  · exact yields_floatNumber _ _ _ _
  · exact yields_floatNumber _ _ _ _

theorem yields_readAfterDigits (negative : Bool) (significand : Nat) (exponent : Int)
    (text : List UInt8) :
    Yields IsWordOrFloat (readAfterDigits negative significand exponent text) := by
  unfold readAfterDigits
  split
  · exact yields_readExponent _ _ _ _
  · exact yields_floatNumber _ _ _ _

theorem yields_readFraction (negative : Bool) (significand : Nat) (exponent : Int)
    (text : List UInt8) :
    Yields IsWordOrFloat (readFraction negative significand exponent text) := by
  unfold readFraction
  dsimp only
  repeat' split
  · exact yields_readAfterDigits _ _ _ _
  · exact yields_error _
  · exact yields_error _
  · exact yields_readAfterDigits _ _ _ _

theorem yields_integerNumber (negative : Bool) {significand : Nat}
    (hlimit : significand < significandLimit) (rest : List UInt8) :
    Yields IsWordOrFloat (integerNumber negative significand rest) := by
  unfold integerNumber
  repeat' split
  · exact yields_ok (fun _ => Number.isWord_integer_iff.mpr (by omega)) _
  · next hword =>
      rw [Bool.and_eq_true, decide_eq_true_eq, decide_eq_true_eq] at hword
      exact yields_ok (fun _ => Number.isWord_integer_iff.mpr (by omega)) _
  · exact yields_floatNumber _ _ _ _

theorem yields_readAfterInteger (negative : Bool) {significand : Nat}
    (hlimit : significand < significandLimit) (dropped : Nat) (text : List UInt8) :
    Yields IsWordOrFloat (readAfterInteger negative significand dropped text) := by
  unfold readAfterInteger
  repeat' split
  · exact yields_readFraction _ _ _ _
  · exact yields_readExponent _ _ _ _
  · exact yields_integerNumber _ hlimit _
  · exact yields_floatNumber _ _ _ _

/-- Digits are gathered below the limit, so an integer that was read fits 64 bits. -/
theorem yields_readNumber (negative : Bool) (text : List UInt8) :
    Yields IsWordOrFloat (readNumber negative text) := by
  unfold readNumber
  dsimp only
  repeat' split
  · exact yields_error _
  · exact yields_error _
  · exact yields_readAfterInteger _ (by decide) _ _
  · next b rest _ _ =>
      have hdigit : digitValue b < significandLimit := by
        have hoctet := b.toNat_lt
        show b.toNat - 0x30 < 0x10000000000000000
        omega
      exact yields_readAfterInteger _ (gather_lt hdigit rest) _ _
  · exact yields_error _

/-! ### Values -/

/-- What holds of every value that is read with so many levels. -/
structure IsRead (levels : Nat) (v : Json) : Prop where
  hasDistinctNames : v.HasDistinctNames
  depth_le : v.depth ≤ levels
  isWordOrFloat : ∀ n ∈ v.allNumbers, IsWordOrFloat n

theorem isRead_scalar {v : Json} (hnames : v.HasDistinctNames) (hdepth : v.depth = 0)
    (hnumbers : v.allNumbers = []) (levels : Nat) : IsRead levels v :=
  ⟨hnames, hdepth ▸ Nat.zero_le levels, by simp [hnumbers]⟩

theorem isRead_number {n : Number} (hn : IsWordOrFloat n) (levels : Nat) :
    IsRead levels (number n) :=
  ⟨trivial, Nat.zero_le levels, List.forall_mem_singleton.mpr hn⟩

theorem isRead_array {levels : Nat} {items : List Json} (h : ∀ v ∈ items, IsRead levels v) :
    IsRead (levels + 1) (array items) where
  hasDistinctNames := hasDistinctNames_array.mpr fun v hv => (h v hv).hasDistinctNames
  depth_le := depth_array_le_iff.mpr fun v hv => (h v hv).depth_le
  isWordOrFloat n hn := by
    obtain ⟨v, hv, hn⟩ := mem_allNumbers_array.mp hn
    exact (h v hv).isWordOrFloat n hn

theorem isRead_ofPairs {levels : Nat} {pairs : List (String × Json)}
    (h : ∀ m ∈ pairs, IsRead levels m.2) :
    IsRead (levels + 1) (object (Members.ofPairs pairs)) where
  hasDistinctNames := hasDistinctNames_ofPairs fun m hm => (h m hm).hasDistinctNames
  depth_le := depth_object_le_iff.mpr fun m hm =>
    (h m (Members.mem_of_mem_ofPairs hm)).depth_le
  isWordOrFloat n hn := by
    obtain ⟨m, hm, hn⟩ := mem_allNumbers_object.mp hn
    exact (h m (Members.mem_of_mem_ofPairs hm)).isWordOrFloat n hn

/-! ### The readers -/

variable {levels : Nat}

theorem yields_readWord {v : Json} (hv : IsRead levels v) (word text : List UInt8) :
    Yields (IsRead levels) (readWord v word text) := by
  induction word generalizing text with
  | nil => exact yields_ok hv text
  | cons w word ih =>
      cases text with
      | nil => exact yields_error _
      | cons b rest =>
          rw [readWord]
          split
          · exact ih rest
          · exact yields_error _

variable (levels) in
theorem yields_readScalar (b : UInt8) (rest : List UInt8) :
    Yields (IsRead levels) (readScalar b rest) := by
  have hnumber : ∀ n, IsWordOrFloat n → IsRead levels (number n) :=
    fun n hn => isRead_number hn levels
  have hboolean : ∀ b, IsRead levels (boolean b) :=
    fun b => isRead_scalar (v := boolean b) trivial rfl rfl levels
  have hstring : ∀ s, IsRead levels (string s) :=
    fun s => isRead_scalar (v := string s) trivial rfl rfl levels
  unfold readScalar
  repeat' split
  · exact yields_readWord (isRead_scalar (v := null) trivial rfl rfl levels) _ _
  · exact yields_readWord (hboolean true) _ _
  · exact yields_readWord (hboolean false) _ _
  · exact (yields_true _).map fun s _ => hstring s
  · exact (yields_readNumber _ _).map hnumber
  · exact (yields_readNumber _ _).map hnumber
  · exact yields_error _

variable {item : List UInt8 → Read Json} (hitem : ∀ text, Yields (IsRead levels) (item text))
include hitem

theorem yields_readLaterItems (fuel : Nat) (text : List UInt8) :
    Yields (∀ v ∈ ·, IsRead levels v) (readLaterItems item fuel text) := by
  induction fuel generalizing text with
  | zero => exact yields_error _
  | succ fuel ih =>
      rw [readLaterItems]
      repeat' split
      · exact yields_error _
      · exact yields_ok (by simp) _
      · exact yields_error _
      · exact yields_error _
      · refine (hitem _).andThen ?_
        intro v hv rest
        refine (ih rest).map ?_
        intro vs hvs
        exact List.forall_mem_cons.mpr ⟨hv, hvs⟩
      · exact yields_error _

theorem yields_readItems (text : List UInt8) :
    Yields (∀ v ∈ ·, IsRead levels v) (readItems item text) := by
  rw [readItems]
  repeat' split
  · exact yields_error _
  · exact yields_ok (by simp) _
  · refine (hitem _).andThen ?_
    intro v hv rest
    refine (yields_readLaterItems hitem _ rest).map ?_
    intro vs hvs
    exact List.forall_mem_cons.mpr ⟨hv, hvs⟩

theorem yields_readMember (text : List UInt8) :
    Yields (fun m => IsRead levels m.2) (readMember item text) := by
  cases text with
  | nil => exact yields_error _
  | cons b rest =>
      rw [readMember]
      split
      · refine (yields_true _).andThen ?_
        intro name _ rest
        repeat' split
        · exact yields_error _
        · exact (hitem _).map fun v hv => hv
        · exact yields_error _
      · exact yields_error _

theorem yields_readLaterMembers (fuel : Nat) (text : List UInt8) :
    Yields (∀ m ∈ ·, IsRead levels m.2) (readLaterMembers item fuel text) := by
  induction fuel generalizing text with
  | zero => exact yields_error _
  | succ fuel ih =>
      rw [readLaterMembers]
      repeat' split
      · exact yields_error _
      · exact yields_ok (by simp) _
      · exact yields_error _
      · exact yields_error _
      · refine (yields_readMember hitem _).andThen ?_
        intro m hm rest
        refine (ih rest).map ?_
        intro ms hms
        exact List.forall_mem_cons.mpr ⟨hm, hms⟩
      · exact yields_error _

theorem yields_readMembers (text : List UInt8) :
    Yields (∀ m ∈ ·, IsRead levels m.2) (readMembers item text) := by
  rw [readMembers]
  repeat' split
  · exact yields_error _
  · exact yields_ok (by simp) _
  · refine (yields_readMember hitem _).andThen ?_
    intro m hm rest
    refine (yields_readLaterMembers hitem _ rest).map ?_
    intro ms hms
    exact List.forall_mem_cons.mpr ⟨hm, hms⟩

omit hitem

theorem yields_readValue (levels : Nat) (text : List UInt8) :
    Yields (IsRead levels) (readValue levels text) := by
  induction levels generalizing text with
  | zero =>
      rw [readValue]
      repeat' split
      · exact yields_error _
      · exact yields_error _
      · exact yields_readScalar _ _ _
  | succ levels ih =>
      rw [readValue]
      repeat' split
      · exact yields_error _
      · exact (yields_readItems ih _).map fun vs hvs => isRead_array hvs
      · exact (yields_readMembers ih _).map fun pairs hpairs => isRead_ofPairs hpairs
      · exact yields_readScalar _ _ _

theorem exists_readValue_of_ofOctets {text : List UInt8} {v : Json} (h : ofOctets text = .ok v) :
    ∃ rest, readValue nestingLimit text = .ok (v, rest) ∧ skipSpace rest = [] := by
  rw [ofOctets, readWhole] at h
  cases hvalue : readValue nestingLimit text with
  | error fault =>
      rw [hvalue] at h
      cases h
  | ok found =>
      obtain ⟨w, rest⟩ := found
      rw [hvalue] at h
      dsimp only at h
      cases hspace : skipSpace rest with
      | nil =>
          rw [hspace] at h
          cases h
          exact ⟨rest, rfl, hspace⟩
      | cons b more =>
          rw [hspace] at h
          cases h

/-- **A value that was read** has distinct names, is nested at most 127 levels deep, and has no
integer of more than 64 bits. -/
theorem isRead_of_ofOctets {text : List UInt8} {v : Json} (h : ofOctets text = .ok v) :
    IsRead nestingLimit v := by
  obtain ⟨rest, hread, _⟩ := exists_readValue_of_ofOctets h
  exact yields_readValue _ _ v rest hread

theorem hasDistinctNames_of_ofOctets {text : List UInt8} {v : Json} (h : ofOctets text = .ok v) :
    v.HasDistinctNames :=
  (isRead_of_ofOctets h).hasDistinctNames

end Json

end RamlSchema
