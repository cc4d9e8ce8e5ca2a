import RamlSchema.Json.Reader
import RamlSchema.Json.Writer
import RamlSchema.Proofs.Text.Utf8

/-!
# Layouts

The compact and the pretty text of a value differ in the blanks between its tokens and in nothing
else. A layout says which blanks these are and how the text of an array or an object is made of the
texts inside it, so that what holds of every layout holds of both.
-/

namespace RamlSchema.Json

open Utf8

section

variable {α : Type} (line : Nat → List Char) (close : Char) (entry : α → List Char) (level : Nat)

/-- What stands behind an entry: further ones, each behind a comma and on a line of its own, and the
closing bracket. -/
def laterEntries : List α → List Char
  | [] => line level ++ [close]
  | a :: rest => ',' :: (line (level + 1) ++ entry a ++ laterEntries rest)

/-- What stands behind an opening bracket. -/
def entries : List α → List Char
  | [] => [close]
  | a :: rest => line (level + 1) ++ entry a ++ laterEntries line close entry level rest

/-- Every later entry takes its comma at least. -/
theorem length_lt_laterEntries (rest : List α) :
    rest.length < (laterEntries line close entry level rest).length := by
  induction rest with
  | nil => simp [laterEntries]
  | cons a rest ih =>
      simp only [laterEntries, List.length_cons, List.length_append]
      omega

end

/-! ### The two layouts -/

/-- A way to lay values out, with the lines that it starts and the gap behind a colon. -/
structure Layout where
  line : Nat → List Char
  gap : List Char
  chars : Nat → Json → List Char
  isSpace_line : ∀ level, ∀ b ∈ encode (line level), isSpace b = true
  isSpace_gap : ∀ b ∈ encode gap, isSpace b = true
  chars_null : ∀ level, chars level null = nullText
  chars_boolean : ∀ level b, chars level (boolean b) = booleanText b
  chars_number : ∀ level n, chars level (number n) = n.text
  chars_string : ∀ level s, chars level (string s) = quote s
  chars_array : ∀ level items,
    chars level (array items) = '[' :: entries line ']' (chars (level + 1)) level items
  chars_object : ∀ level (ms : Members),
    chars level (object ms) = '{' ::
      entries line '}' (fun m => quote m.1 ++ ':' :: (gap ++ chars (level + 1) m.2)) level ms

theorem compactLaterItems_eq (level : Nat) (items : List Json) :
    compactLaterItems items = laterEntries (fun _ => []) ']' compactChars level items := by
  induction items with
  | nil => rfl
  | cons v rest ih =>
      rw [compactLaterItems, ih]
      rfl

theorem compactLaterMembers_eq (level : Nat) (ms : Members) :
    compactLaterMembers ms =
      laterEntries (fun _ => []) '}' (fun m => quote m.1 ++ ':' :: compactChars m.2) level ms := by
  induction ms with
  | nil => rfl
  | cons m rest ih =>
      obtain ⟨k, v⟩ := m
      rw [compactLaterMembers, ih, laterEntries, List.nil_append, List.append_assoc]
      rfl

theorem prettyLaterItems_eq (level : Nat) (items : List Json) :
    prettyLaterItems level items =
      laterEntries newLine ']' (prettyChars (level + 1)) level items := by
  induction items with
  | nil => rfl
  | cons v rest ih =>
      rw [prettyLaterItems, ih]
      rfl

theorem prettyLaterMembers_eq (level : Nat) (ms : Members) :
    prettyLaterMembers level ms =
      laterEntries newLine '}'
        (fun m => quote m.1 ++ ':' :: ([' '] ++ prettyChars (level + 1) m.2)) level ms := by
  induction ms with
  | nil => rfl
  | cons m rest ih =>
      obtain ⟨k, v⟩ := m
      rw [prettyLaterMembers, ih, laterEntries]
      simp only [List.append_assoc, List.cons_append, List.nil_append]

theorem isSpace_newLine (level : Nat) : ∀ b ∈ encode (newLine level), isSpace b = true := by
  intro b hb
  obtain ⟨c, hc, hb⟩ := List.mem_flatMap.mp hb
  rcases List.mem_cons.mp hc with rfl | hc
  · obtain rfl := List.mem_singleton.mp hb
    rfl
  · obtain rfl := List.eq_of_mem_replicate hc
    obtain rfl := List.mem_singleton.mp hb
    rfl

namespace Layout

/-- No blanks at all. -/
def compact : Layout where
  line _ := []
  gap := []
  chars _ := compactChars
  isSpace_line _ _ hb := absurd hb List.not_mem_nil
  isSpace_gap _ hb := absurd hb List.not_mem_nil
  chars_null _ := rfl
  chars_boolean _ _ := rfl
  chars_number _ _ := rfl
  chars_string _ _ := rfl
  chars_array level items := by
    cases items with
    | nil => rfl
    | cons v rest => rw [compactChars, compactItems, compactLaterItems_eq level]; rfl
  chars_object level ms := by
    cases ms with
    | nil => rfl
    | cons m rest =>
        obtain ⟨k, v⟩ := m
        rw [compactChars, compactMembers, compactLaterMembers_eq level, entries, List.nil_append,
          List.append_assoc]
        rfl

/-- One entry a line, two spaces a level, and a space behind each colon. -/
def pretty : Layout where
  line := newLine
  gap := [' ']
  chars := prettyChars
  isSpace_line := isSpace_newLine
  isSpace_gap := List.forall_mem_singleton.mpr rfl
  chars_null _ := rfl
  chars_boolean _ _ := rfl
  chars_number _ _ := rfl
  chars_string _ _ := rfl
  chars_array level items := by
    cases items with
    | nil => rfl
    | cons v rest => rw [prettyChars, prettyItems, prettyLaterItems_eq]; rfl
  chars_object level ms := by
    cases ms with
    | nil => rfl
    | cons m rest =>
        obtain ⟨k, v⟩ := m
        rw [prettyChars, prettyMembers, prettyLaterMembers_eq, entries]
        simp only [List.append_assoc, List.cons_append, List.nil_append]

end Layout

def Layout.text (l : Layout) (v : Json) : String :=
  String.ofList (l.chars 0 v)

end RamlSchema.Json
