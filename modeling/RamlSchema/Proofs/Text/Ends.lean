import RamlSchema.Text.Blank
import Mathlib.Data.List.DropRight

/-!
# The end of a text

What is dropped at the end of a text is the longest run there of what is to be dropped: the text is
what is left and such a run behind it, and what is left does not end with more of it.
-/

namespace RamlSchema

variable {p : Char → Bool}

theorem dropEnd_append_of_forall (cs : List Char) {ending : List Char}
    (h : ∀ c ∈ ending, p c = true) : dropEnd p (cs ++ ending) = dropEnd p cs := by
  rw [dropEnd, dropEnd, List.reverse_append, List.dropWhile_append_of_pos]
  intro c hc
  exact h c (List.mem_reverse.mp hc)

/-- What is dropped at the end of a text consists of nothing but what is to be dropped. -/
theorem exists_eq_dropEnd_append (p : Char → Bool) (cs : List Char) :
    ∃ ending, cs = dropEnd p cs ++ ending ∧ ∀ c ∈ ending, p c = true := by
  refine ⟨(cs.reverse.takeWhile p).reverse, ?_, fun c hc => ?_⟩
  · rw [dropEnd, ← List.reverse_append, List.takeWhile_append_dropWhile, List.reverse_reverse]
  · exact List.all_eq_true.mp List.all_takeWhile c (List.mem_reverse.mp hc)

theorem dropEnd_eq_self {cs : List Char} (h : ∀ c ∈ cs.getLast?, p c = false) :
    dropEnd p cs = cs := by
  apply List.rdropWhile_eq_self_iff.mpr
  intro hne
  rw [h _ (List.getLast?_eq_some_getLast hne)]
  exact Bool.false_ne_true

theorem eq_false_of_mem_getLast?_dropEnd {cs : List Char} {c : Char}
    (h : c ∈ (dropEnd p cs).getLast?) : p c = false := by
  obtain ⟨hne, rfl⟩ := List.mem_getLast?_eq_getLast h
  exact Bool.eq_false_iff.mpr (List.rdropWhile_last_not p cs hne)

theorem dropEnd_append_of_ne_nil {cs ds : List Char} (hne : ds ≠ [])
    (h : ∀ c ∈ ds.getLast?, p c = false) : dropEnd p (cs ++ ds) = cs ++ ds := by
  apply dropEnd_eq_self
  intro c hc
  rw [List.getLast?_append_of_ne_nil _ hne] at hc
  exact h c hc

/-- A text that does not end with a character is what is left of the texts that it makes with any
number of these behind it, and of no others. -/
theorem dropEnd_eq_iff {c : Char} {cs ds : List Char} (h : c ∉ ds.getLast?) :
    dropEnd (· == c) cs = ds ↔ ∃ n, cs = ds ++ List.replicate n c := by
  constructor
  · rintro rfl
    obtain ⟨ending, hcs, hending⟩ := exists_eq_dropEnd_append (· == c) cs
    refine ⟨ending.length, hcs.trans (congrArg _ ?_)⟩
    exact List.eq_replicate_length.mpr fun a ha => beq_iff_eq.mp (hending a ha)
  · rintro ⟨n, rfl⟩
    rw [dropEnd_append_of_forall ds fun a ha => beq_iff_eq.mpr (List.eq_of_mem_replicate ha)]
    exact dropEnd_eq_self fun a ha => beq_eq_false_iff_ne.mpr fun hac => h (hac ▸ ha)

end RamlSchema
