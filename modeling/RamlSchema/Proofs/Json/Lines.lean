import RamlSchema.Proofs.Json.Layout
import RamlSchema.Proofs.Json.Tree

/-!
# Compact texts are single lines

Strings are the only part of a value that may hold a control character, and there it is escaped. So
a compact text, which has no blanks either, has none at all, whatever the value is: nothing in it
ends a line.
-/

namespace RamlSchema

/-- No character of a text is a control character below the space. -/
def IsSingleLine (cs : List Char) : Prop :=
  ∀ c ∈ cs, 0x20 ≤ c.toNat

instance : DecidablePred IsSingleLine :=
  List.decidableBAll fun c : Char => 0x20 ≤ c.toNat

namespace IsSingleLine

variable {cs ds : List Char} {c : Char}

theorem append (hcs : IsSingleLine cs) (hds : IsSingleLine ds) : IsSingleLine (cs ++ ds) := by
  intro c hc
  rcases List.mem_append.mp hc with hc | hc
  · exact hcs c hc
  · exact hds c hc

theorem cons (hc : 0x20 ≤ c.toNat) (hcs : IsSingleLine cs) : IsSingleLine (c :: cs) :=
  List.forall_mem_cons.mpr ⟨hc, hcs⟩

theorem of_subset (h : cs ⊆ ds) (hds : IsSingleLine ds) : IsSingleLine cs :=
  fun c hc => hds c (h hc)

theorem newline_not_mem (h : IsSingleLine cs) : '\n' ∉ cs :=
  fun hmem => absurd (h '\n' hmem) (by decide)

end IsSingleLine

theorem isSingleLine_replicate_zero (n : Nat) : IsSingleLine (List.replicate n '0') := by
  intro c hc
  rw [List.eq_of_mem_replicate hc]
  decide

theorem isSingleLine_toDigits (n : Nat) : IsSingleLine (Nat.toDigits 10 n) := by
  intro c hc
  have hdigit := Nat.isDigit_of_mem_toDigits (by decide) (Nat.le_refl 10) hc
  rw [Char.isDigit_iff_toNat] at hdigit
  exact Nat.le_trans (by decide) hdigit.1

namespace Number

theorem isSingleLine_integerText (n : Int) : IsSingleLine (integerText n) := by
  rw [integerText]
  split
  · exact .cons (by decide) (isSingleLine_toDigits _)
  · exact isSingleLine_toDigits _

theorem isSingleLine_exponentText (e : Int) : IsSingleLine (exponentText e) := by
  refine .cons ?_ (isSingleLine_toDigits _)
  split <;> decide

theorem isSingleLine_positionalText {digits : List Char} (h : IsSingleLine digits) (e : Int) :
    IsSingleLine (positionalText digits e) := by
  rw [positionalText]
  split
  · exact .cons (by decide) (.cons (by decide) ((isSingleLine_replicate_zero _).append h))
  · have hfront := h.of_subset (List.take_subset (e.toNat + 1) digits)
    have hback := h.of_subset (List.drop_subset (e.toNat + 1) digits)
    refine (hfront.append (isSingleLine_replicate_zero _)).append (.cons (by decide) ?_)
    split
    · decide
    · exact hback

theorem isSingleLine_scientificText {digits : List Char} (h : IsSingleLine digits) (e : Int) :
    IsSingleLine (scientificText digits e) := by
  have hexponent : IsSingleLine ('e' :: exponentText e) :=
    .cons (by decide) (isSingleLine_exponentText e)
  cases digits with
  | nil => exact h
  | cons d more =>
      obtain ⟨hd, hmore⟩ := List.forall_mem_cons.mp h
      cases more with
      | nil => exact .cons hd hexponent
      | cons _ _ => exact .cons hd (.cons (by decide) (.append hmore hexponent))

theorem isSingleLine_floatText (x : Binary64) : IsSingleLine (floatText x) := by
  unfold floatText
  extract_lets d digits e magnitude
  have hdigits : IsSingleLine digits := isSingleLine_toDigits d.digits
  have hmagnitude : IsSingleLine magnitude := by
    unfold magnitude
    split
    · exact isSingleLine_positionalText hdigits e
    · exact isSingleLine_scientificText hdigits e
  split
  · exact .cons (by decide) hmagnitude
  · exact hmagnitude

theorem isSingleLine_text (n : Number) : IsSingleLine n.text := by
  cases n with
  | integer k => exact isSingleLine_integerText k
  | float x => exact isSingleLine_floatText x

end Number

namespace Json

theorem space_le_hexDigit : ∀ n < 16, 0x20 ≤ (hexDigit n).toNat := by
  decide

theorem isSingleLine_escapeChar (c : Char) : IsSingleLine (escapeChar c) := by
  unfold escapeChar
  split_ifs with _ _ _ _ _ _ _ hlow
  iterate 7 · decide
  · have hstart : IsSingleLine ['\\', 'u', '0', '0'] := by decide
    have hhigh := space_le_hexDigit (c.toNat / 16) (by omega)
    have hrest := space_le_hexDigit (c.toNat % 16) (by omega)
    exact hstart.append (.cons hhigh (.cons hrest nofun))
  · exact List.forall_mem_singleton.mpr (Nat.not_lt.mp hlow)

theorem isSingleLine_quote (s : String) : IsSingleLine (quote s) := by
  refine .cons (by decide) (.append ?_ (by decide))
  intro c hc
  obtain ⟨a, _, hc⟩ := List.mem_flatMap.mp hc
  exact isSingleLine_escapeChar a c hc

theorem isSingleLine_laterEntries {α : Type} {close : Char} {entry : α → List Char} {level : Nat}
    {l : List α} (hclose : 0x20 ≤ close.toNat) (h : ∀ a ∈ l, IsSingleLine (entry a)) :
    IsSingleLine (laterEntries (fun _ => []) close entry level l) := by
  induction l with
  | nil => exact List.forall_mem_singleton.mpr hclose
  | cons a rest ih =>
      obtain ⟨ha, hrest⟩ := List.forall_mem_cons.mp h
      exact .cons (by decide) (.append ha (ih hrest))

theorem isSingleLine_entries {α : Type} {close : Char} {entry : α → List Char} {level : Nat}
    {l : List α} (hclose : 0x20 ≤ close.toNat) (h : ∀ a ∈ l, IsSingleLine (entry a)) :
    IsSingleLine (entries (fun _ => []) close entry level l) := by
  cases l with
  | nil => exact List.forall_mem_singleton.mpr hclose
  | cons a rest =>
      obtain ⟨ha, hrest⟩ := List.forall_mem_cons.mp h
      exact .append ha (isSingleLine_laterEntries hclose hrest)

/-- Whatever a value holds, its compact text is a single line. -/
theorem isSingleLine_compactChars (v : Json) : IsSingleLine v.compactChars := by
  induction v using Json.induction with
  | null => decide
  | boolean b => cases b <;> decide
  | number n => exact n.isSingleLine_text
  | string s => exact isSingleLine_quote s
  | array items ih =>
      have htext : (array items).compactChars = _ := Layout.compact.chars_array 0 items
      rw [htext]
      exact .cons (by decide) (isSingleLine_entries (by decide) ih)
  | object ms ih =>
      have htext : (object ms).compactChars = _ := Layout.compact.chars_object 0 ms
      rw [htext]
      refine .cons (by decide) (isSingleLine_entries (by decide) fun m hm => ?_)
      exact .append (isSingleLine_quote m.1) (.cons (by decide) (ih m hm))

end Json

end RamlSchema
