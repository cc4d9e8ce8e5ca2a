import RamlSchema.Proofs.Json.Layout
import RamlSchema.Proofs.Json.Scalars
import RamlSchema.Proofs.Json.Tree

/-!
# Reading back what was written

A value that is written in any layout and read again is the same value, with all names in their
order, if it is not nested too deep; if it is, the reader says so and fails in no other way. The
induction is on the value, and at every bracket the reader has one level less to give.
-/

namespace RamlSchema

open Utf8

/-- A step of reading gives a value and what is left of the text where the value fits, and finds the
text too deep where it does not. -/
def Read.Gives {α : Type} (fits : Prop) (a : α) (rest : List UInt8) (step : Read α) : Prop :=
  (fits → step = .ok (a, rest)) ∧ (¬ fits → ∃ left, step = .error ⟨.tooDeep, left⟩)

namespace Read

variable {α β : Type} {p q : Prop} {a : α} {rest rest' : List UInt8}

theorem gives_ok (hp : p) : Gives p a rest (.ok (a, rest)) :=
  ⟨fun _ => rfl, fun h => absurd hp h⟩

theorem gives_tooDeep (hp : ¬ p) (left : Nat) : Gives p a rest (.error ⟨.tooDeep, left⟩) :=
  ⟨fun h => absurd h hp, fun _ => ⟨left, rfl⟩⟩

theorem Gives.congr {step : Read α} (hstep : Gives p a rest step) (hpq : p ↔ q) :
    Gives q a rest step :=
  ⟨fun h => hstep.1 (hpq.mpr h), fun h => hstep.2 (mt hpq.mp h)⟩

theorem Gives.andThen {step : Read α} {next : α → List UInt8 → Read β} {b : β}
    (hstep : Gives p a rest step) (hnext : Gives q b rest' (next a rest)) :
    Gives (p ∧ q) b rest' (step.andThen next) := by
  by_cases hp : p
  · rw [hstep.1 hp]
    exact hnext.congr (and_iff_right hp).symm
  · obtain ⟨left, hfault⟩ := hstep.2 hp
    rw [hfault]
    exact gives_tooDeep (fun h => hp h.1) left

theorem Gives.map {step : Read α} (hstep : Gives p a rest step) (f : α → β) :
    Gives p (f a) rest (step.map f) :=
  (hstep.andThen (gives_ok trivial)).congr (and_iff_left trivial)

end Read

open Read

namespace Json

/-! ### Readers between brackets -/

/-- A reader of the entries between brackets: how it goes on at an entry, at the comma in front of a
later one, and at the closing bracket. -/
structure ListReader (α : Type) where
  mark : Char
  close : UInt8
  entry : List UInt8 → Read α
  first : List UInt8 → Read (List α)
  later : Nat → List UInt8 → Read (List α)
  encodeChar_mark : encodeChar mark = [close]
  endsNumber_close : ∀ rest, EndsNumber (close :: rest)
  first_close : ∀ rest, first (close :: rest) = .ok ([], rest)
  first_entry : ∀ {blank text : List UInt8}, (∀ b ∈ blank, isSpace b = true) → Starts close text →
    first (blank ++ text) =
      (entry text).andThen fun a rest => (later (blank ++ text).length rest).map (a :: ·)
  later_close : ∀ {blank : List UInt8}, (∀ b ∈ blank, isSpace b = true) → ∀ fuel rest,
    later (fuel + 1) (blank ++ close :: rest) = .ok ([], rest)
  later_comma : ∀ {blank text : List UInt8}, (∀ b ∈ blank, isSpace b = true) → Starts close text →
    ∀ fuel, later (fuel + 1) (0x2C :: (blank ++ text)) =
      (entry text).andThen fun a rest => (later fuel rest).map (a :: ·)

def itemReader (item : List UInt8 → Read Json) : ListReader Json where
  mark := ']'
  close := 0x5D
  entry := item
  first := readItems item
  later := readLaterItems item
  encodeChar_mark := rfl
  endsNumber_close _ := ⟨by decide, by decide, by decide, by decide⟩
  first_close _ := rfl
  first_entry := by
    rintro blank _ hblank ⟨b, more, rfl, hspace, hclose⟩
    rw [readItems, skipSpace_append hblank, skipSpace_cons hspace]
    exact if_neg hclose
  later_close hblank fuel rest := by
    rw [readLaterItems, skipSpace_append hblank, skipSpace_cons (by decide)]
    rfl
  later_comma := by
    rintro blank _ hblank ⟨b, more, rfl, hspace, hclose⟩ fuel
    rw [readLaterItems, skipSpace_cons (by decide)]
    dsimp only
    rw [if_neg (by decide), if_pos rfl, skipSpace_append hblank, skipSpace_cons hspace]
    exact if_neg hclose

def memberReader (item : List UInt8 → Read Json) : ListReader (String × Json) where
  mark := '}'
  close := 0x7D
  entry := readMember item
  first := readMembers item
  later := readLaterMembers item
  encodeChar_mark := rfl
  endsNumber_close _ := ⟨by decide, by decide, by decide, by decide⟩
  first_close _ := rfl
  first_entry := by
    rintro blank _ hblank ⟨b, more, rfl, hspace, hclose⟩
    rw [readMembers, skipSpace_append hblank, skipSpace_cons hspace]
    exact if_neg hclose
  later_close hblank fuel rest := by
    rw [readLaterMembers, skipSpace_append hblank, skipSpace_cons (by decide)]
    rfl
  later_comma := by
    rintro blank _ hblank ⟨b, more, rfl, hspace, hclose⟩ fuel
    rw [readLaterMembers, skipSpace_cons (by decide)]
    dsimp only
    rw [if_neg (by decide), if_pos rfl, skipSpace_append hblank, skipSpace_cons hspace]
    exact if_neg hclose

namespace ListReader

variable {α : Type} (r : ListReader α) (l : Layout) (written : α → List Char) (level : Nat)
  {fits : α → Prop}

/-- An entry is read from what is written of it, if it fits. -/
structure Takes (fits : α → Prop) (a : α) : Prop where
  starts : Starts r.close (encode (written a))
  gives : ∀ rest, EndsNumber rest → Gives (fits a) a rest (r.entry (encode (written a) ++ rest))

theorem endsNumber_laterEntries (entries : List α) (rest : List UInt8) :
    EndsNumber (encode (laterEntries l.line r.mark written level entries) ++ rest) := by
  cases entries with
  | nil =>
      rw [laterEntries, encode_append, List.append_assoc, encode_cons, r.encodeChar_mark]
      exact endsNumber_append (l.isSpace_line level) (r.endsNumber_close rest)
  | cons a entries => exact ⟨by decide, by decide, by decide, by decide⟩

theorem gives_later {entries : List α} (h : ∀ a ∈ entries, r.Takes written fits a) {fuel : Nat}
    (hfuel : entries.length < fuel) (rest : List UInt8) :
    Gives (∀ a ∈ entries, fits a) entries rest
      (r.later fuel (encode (laterEntries l.line r.mark written level entries) ++ rest)) := by
  induction entries generalizing fuel with
  | nil =>
      cases fuel with
      | zero => exact absurd hfuel (Nat.not_lt_zero _)
      | succ fuel =>
          have htext : encode (laterEntries l.line r.mark written level []) ++ rest =
              encode (l.line level) ++ r.close :: rest := by
            rw [laterEntries, encode_append, List.append_assoc, encode_cons, r.encodeChar_mark]
            rfl
          rw [htext, r.later_close (l.isSpace_line level)]
          exact gives_ok (by simp)
  | cons a entries ih =>
      obtain ⟨ha, h⟩ := List.forall_mem_cons.mp h
      cases fuel with
      | zero => exact absurd hfuel (Nat.not_lt_zero _)
      | succ fuel =>
          have htext : encode (laterEntries l.line r.mark written level (a :: entries)) ++ rest =
              0x2C :: (encode (l.line (level + 1)) ++ (encode (written a) ++
                (encode (laterEntries l.line r.mark written level entries) ++ rest))) := by
            rw [laterEntries, encode_cons, encode_append, encode_append]
            simp only [List.append_assoc]
            rfl
          rw [htext, r.later_comma (l.isSpace_line (level + 1)) (ha.starts.append _)]
          have hfirst := ha.gives _ (r.endsNumber_laterEntries l written level entries rest)
          have hlater := ih h (Nat.lt_of_succ_lt_succ hfuel)
          exact (hfirst.andThen (hlater.map (a :: ·))).congr List.forall_mem_cons.symm

/-- What is written of a list between brackets is read, if all of it fits. The fuel is the length of the
text, in which each later entry has its comma. -/
theorem gives_first {entries : List α} (h : ∀ a ∈ entries, r.Takes written fits a)
    (rest : List UInt8) :
    Gives (∀ a ∈ entries, fits a) entries rest
      (r.first (encode (Json.entries l.line r.mark written level entries) ++ rest)) := by
  cases entries with
  | nil =>
      have htext : encode (Json.entries l.line r.mark written level []) ++ rest =
          r.close :: rest := by
        rw [Json.entries, encode_cons, r.encodeChar_mark]
        rfl
      rw [htext, r.first_close]
      exact gives_ok (by simp)
  | cons a entries =>
      obtain ⟨ha, h⟩ := List.forall_mem_cons.mp h
      have htext : encode (Json.entries l.line r.mark written level (a :: entries)) ++ rest =
          encode (l.line (level + 1)) ++ (encode (written a) ++
            (encode (laterEntries l.line r.mark written level entries) ++ rest)) := by
        rw [Json.entries, encode_append, encode_append]
        simp only [List.append_assoc]
      have hfuel : entries.length < (encode (l.line (level + 1)) ++ (encode (written a) ++
          (encode (laterEntries l.line r.mark written level entries) ++ rest))).length := by
        have hcommas := length_lt_laterEntries l.line r.mark written level entries
        have hoctets := length_le_length_encode (laterEntries l.line r.mark written level entries)
        simp only [List.length_append]
        omega
      rw [htext, r.first_entry (l.isSpace_line (level + 1)) (ha.starts.append _)]
      have hfirst := ha.gives _ (r.endsNumber_laterEntries l written level entries rest)
      have hlater := r.gives_later l written level h hfuel rest
      exact (hfirst.andThen (hlater.map (a :: ·))).congr List.forall_mem_cons.symm

end ListReader

theorem readMember_quote {item : List UInt8 → Read Json} (k : String) (text : List UInt8) :
    readMember item (encode (quote k) ++ 0x3A :: text) = (item text).map (k, ·) := by
  rw [encode_quote_append, readMember, if_pos rfl, readString_escapeChars]
  rfl

/-- All numbers of the tree are integers of 64 bits. -/
def HasWords (v : Json) : Prop :=
  ∀ n ∈ v.allNumbers, n.IsWord

instance : DecidablePred HasWords := fun v =>
  inferInstanceAs (Decidable (∀ n ∈ v.allNumbers, n.IsWord))

/-- All numbers of the tree are read back from their texts. -/
def KeepsNumbers (v : Json) : Prop :=
  ∀ n ∈ v.allNumbers, n.IsKept

theorem HasWords.keepsNumbers {v : Json} (h : v.HasWords) : v.KeepsNumbers :=
  fun n hn => (h n hn).isKept

theorem keepsNumbers_array {items : List Json} :
    (array items).KeepsNumbers ↔ ∀ v ∈ items, v.KeepsNumbers := by
  constructor
  · intro h v hv n hn
    exact h n (mem_allNumbers_array.mpr ⟨v, hv, hn⟩)
  · intro h n hn
    obtain ⟨v, hv, hn⟩ := mem_allNumbers_array.mp hn
    exact h v hv n hn

theorem keepsNumbers_object {ms : Members} :
    (object ms).KeepsNumbers ↔ ∀ m ∈ ms, m.2.KeepsNumbers := by
  constructor
  · intro h m hm n hn
    exact h n (mem_allNumbers_object.mpr ⟨m, hm, hn⟩)
  · intro h n hn
    obtain ⟨m, hm, hn⟩ := mem_allNumbers_object.mp hn
    exact h m hm n hn

/-! ### Values in a layout -/

namespace Layout

variable (l : Layout)

theorem starts_chars {v : Json} (hkept : v.KeepsNumbers) (level : Nat) :
    Starts 0x5D (encode (l.chars level v)) := by
  cases v with
  | null => rw [l.chars_null]; exact ⟨_, _, rfl, by decide, by decide⟩
  | boolean b =>
      rw [l.chars_boolean]
      cases b
      · exact ⟨_, _, rfl, by decide, by decide⟩
      · exact ⟨_, _, rfl, by decide, by decide⟩
  | number n =>
      rw [l.chars_number]
      exact (hkept n (by simp [allNumbers])).starts
  | string s => rw [l.chars_string]; exact ⟨0x22, _, rfl, by decide, by decide⟩
  | array items => rw [l.chars_array]; exact ⟨0x5B, _, rfl, by decide, by decide⟩
  | object ms => rw [l.chars_object]; exact ⟨0x7B, _, rfl, by decide, by decide⟩

/-- From what is written of a value the reader gets this value, if it is nested no deeper than the
reader may go. -/
def ReadsBack (levels : Nat) (v : Json) : Prop :=
  ∀ level rest, EndsNumber rest →
    Gives (v.depth ≤ levels) v rest (readValue levels (encode (l.chars level v) ++ rest))

variable {l} {levels : Nat}

theorem ReadsBack.takes_item {v : Json} (h : l.ReadsBack levels v) (hkept : v.KeepsNumbers)
    (level : Nat) :
    (itemReader (readValue levels)).Takes (l.chars level) (·.depth ≤ levels) v :=
  ⟨l.starts_chars hkept level, h level⟩

theorem ReadsBack.takes_member {m : String × Json} (h : l.ReadsBack levels m.2) (level : Nat) :
    (memberReader (readValue levels)).Takes
      (fun m => quote m.1 ++ ':' :: (l.gap ++ l.chars level m.2)) (·.2.depth ≤ levels) m := by
  constructor
  · have hclose : (0x22 : UInt8) ≠ 0x7D := by decide
    exact ⟨0x22, _, rfl, by decide, hclose⟩
  · intro rest hrest
    have htext : encode (quote m.1 ++ ':' :: (l.gap ++ l.chars level m.2)) ++ rest =
        encode (quote m.1) ++ 0x3A :: (encode l.gap ++ (encode (l.chars level m.2) ++ rest)) := by
      rw [encode_append, encode_cons, encode_append]
      simp only [List.append_assoc]
      rfl
    have hentry : (memberReader (readValue levels)).entry = readMember (readValue levels) := rfl
    rw [htext, hentry, readMember_quote, readValue_append l.isSpace_gap]
    exact (h level rest hrest).map (m.1, ·)

/-- **What is written in a layout is read back**: every value with distinct names whose numbers are
read back from their texts. -/
theorem readsBack {v : Json} (hnames : v.HasDistinctNames) (hkept : v.KeepsNumbers) (levels : Nat) :
    l.ReadsBack levels v := by
  induction v using Json.induction generalizing levels with
  | null =>
      intro level rest _
      rw [l.chars_null, readValue_null]
      exact gives_ok (Nat.zero_le levels)
  | boolean b =>
      intro level rest _
      rw [l.chars_boolean, readValue_boolean]
      exact gives_ok (Nat.zero_le levels)
  | number n =>
      intro level rest hrest
      rw [l.chars_number, (hkept n (by simp [allNumbers])).readValue levels hrest]
      exact gives_ok (Nat.zero_le levels)
  | string s =>
      intro level rest _
      rw [l.chars_string, readValue_string]
      exact gives_ok (Nat.zero_le levels)
  | array items ih =>
      intro level rest _
      rw [l.chars_array]
      cases levels with
      | zero => exact gives_tooDeep (Nat.not_succ_le_zero _) _
      | succ levels =>
          have hitems : ∀ v ∈ items,
              (itemReader (readValue levels)).Takes (l.chars (level + 1)) (·.depth ≤ levels) v := by
            intro v hv
            have hitem := keepsNumbers_array.mp hkept v hv
            exact (ih v hv (hasDistinctNames_array.mp hnames v hv) hitem levels).takes_item hitem _
          have hgives := (itemReader (readValue levels)).gives_first l _ level hitems rest
          exact (hgives.map array).congr depth_array_le_iff.symm
  | object ms ih =>
      intro level rest _
      rw [l.chars_object]
      obtain ⟨hnodup, hnames⟩ := hasDistinctNames_object.mp hnames
      cases levels with
      | zero => exact gives_tooDeep (Nat.not_succ_le_zero _) _
      | succ levels =>
          have hmembers : ∀ m ∈ ms, (memberReader (readValue levels)).Takes
              (fun m => quote m.1 ++ ':' :: (l.gap ++ l.chars (level + 1) m.2))
              (·.2.depth ≤ levels) m :=
            fun m hm =>
              (ih m hm (hnames m hm) (keepsNumbers_object.mp hkept m hm) levels).takes_member _
          have hgives := (memberReader (readValue levels)).gives_first l _ level hmembers rest
          have hpairs := hgives.map fun pairs => object (Members.ofPairs pairs)
          rw [Members.ofPairs_of_nodup hnodup] at hpairs
          exact hpairs.congr depth_object_le_iff.symm

theorem ofOctets_chars (l : Layout) {v : Json} (hnames : v.HasDistinctNames)
    (hkept : v.KeepsNumbers) {tail : List UInt8} (htail : ∀ b ∈ tail, isSpace b = true) :
    (v.depth ≤ nestingLimit → ofOctets (encode (l.chars 0 v) ++ tail) = .ok v) ∧
      (nestingLimit < v.depth → ∃ e, ofOctets (encode (l.chars 0 v) ++ tail) = .error e ∧
        e.cause = .tooDeep) := by
  have hends : EndsNumber (tail ++ []) := endsNumber_append htail trivial
  rw [List.append_nil] at hends
  have hgives := readsBack (l := l) hnames hkept nestingLimit 0 tail hends
  have hskip : skipSpace tail = [] := by
    rw [← List.append_nil tail, skipSpace_append htail]
    rfl
  constructor
  · intro hdepth
    rw [ofOctets, readWhole, hgives.1 hdepth]
    dsimp only
    rw [hskip]
  · intro hdepth
    obtain ⟨left, hfault⟩ := hgives.2 (Nat.not_le.mpr hdepth)
    rw [ofOctets, readWhole, hfault]
    exact ⟨_, rfl, rfl⟩

end Layout

end Json

end RamlSchema
