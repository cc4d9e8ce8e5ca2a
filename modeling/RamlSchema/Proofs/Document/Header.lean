import RamlSchema.Document.Wrapping
import RamlSchema.Proofs.Text.Ends

/-!
# The header of a wrapped document

A wrapped document has the first line of an API exactly where the library had that of a library, and
keeps any other first line. Line breaks are taken off its end before the resource is put behind it,
which may reach into the first line; but those are blanks, and a header is read without the blanks
at its end.
-/

namespace RamlSchema

namespace Document

theorem isBlank_of_isLineBreak {c : Char} (h : isLineBreak c = true) : isBlank c = true := by
  rw [isLineBreak, Bool.or_eq_true, beq_iff_eq, beq_iff_eq] at h
  rcases h with rfl | rfl
  · decide
  · decide

theorem ne_newline_of_mem_firstLine {cs : List Char} {c : Char} (h : c ∈ firstLine cs) :
    (c != '\n') = true :=
  List.all_eq_true.mp List.all_takeWhile c h

theorem newline_not_mem_firstLine (cs : List Char) : '\n' ∉ firstLine cs := by
  intro h
  exact absurd (ne_newline_of_mem_firstLine h) (by decide)

theorem firstLine_eq_self {cs : List Char} (h : '\n' ∉ cs) : firstLine cs = cs := by
  apply List.takeWhile_eq_self_iff.mpr
  intro c hc
  exact bne_iff_ne.mpr fun heq => h (heq ▸ hc)

/-- What stands behind a line feed does not come into the first line. -/
theorem firstLine_append_of_mem {cs : List Char} (h : '\n' ∈ cs) (ds : List Char) :
    firstLine (cs ++ ds) = firstLine cs := by
  have hstop : (firstLine cs).length ≠ cs.length := by
    intro hlength
    have hall : firstLine cs = cs :=
      List.IsPrefix.eq_of_length (List.takeWhile_prefix (· != '\n')) hlength
    exact newline_not_mem_firstLine cs (hall.symm ▸ h)
  rw [firstLine] at hstop
  rw [firstLine, List.takeWhile_append, if_neg hstop, firstLine]

/-- A line that is not ended goes on. -/
theorem firstLine_append_of_not_mem {cs : List Char} (h : '\n' ∉ cs) (ds : List Char) :
    firstLine (cs ++ ds) = cs ++ firstLine ds :=
  List.takeWhile_append_of_pos fun _ hc => bne_iff_ne.mpr fun heq => h (heq ▸ hc)

theorem firstLine_append_newline (cs rest : List Char) :
    firstLine (cs ++ '\n' :: rest) = firstLine cs := by
  by_cases hnewline : '\n' ∈ cs
  · exact firstLine_append_of_mem hnewline _
  · have hnone : firstLine ('\n' :: rest) = [] := rfl
    rw [firstLine_append_of_not_mem hnewline, hnone, List.append_nil, firstLine_eq_self hnewline]

theorem header_append_of_isLineBreak (cs : List Char) {ending : List Char}
    (h : ∀ c ∈ ending, isLineBreak c = true) : header (cs ++ ending) = header cs := by
  by_cases hnewline : '\n' ∈ cs
  · rw [header, firstLine_append_of_mem hnewline, header]
  · rw [header, firstLine_append_of_not_mem hnewline, header, firstLine_eq_self hnewline]
    refine dropEnd_append_of_forall cs fun c hc => isBlank_of_isLineBreak (h c ?_)
    exact (List.takeWhile_prefix _).subset hc

theorem firstLine_laterLines (cs : List Char) : firstLine (laterLines cs) = [] := by
  induction cs with
  | nil => rfl
  | cons c cs ih =>
      rw [laterLines, List.dropWhile_cons]
      split
      · exact ih
      · next hc => rw [firstLine, List.takeWhile_cons, if_neg hc]

theorem ne_newline_of_mem_apiFirstLine {cs : List Char} {c : Char}
    (h : c ∈ apiFirstLine (firstLine cs)) : (c != '\n') = true := by
  unfold apiFirstLine at h
  split at h
  · have hapi : (apiHeader ++ ['\r']).all (· != '\n') = true := by decide
    refine List.all_eq_true.mp hapi c ?_
    rcases List.mem_append.mp h with h | h
    · exact List.mem_append_left _ h
    · split at h
      · exact List.mem_append_right _ h
      · exact absurd h List.not_mem_nil
  · exact ne_newline_of_mem_firstLine h

/-- The first line that takes the place of another one is the first line of the new text. -/
theorem firstLine_apiFirstLine_append (raml : List Char) :
    firstLine (apiFirstLine (firstLine raml) ++ laterLines raml) =
      apiFirstLine (firstLine raml) := by
  rw [firstLine, List.takeWhile_append_of_pos fun c hc => ne_newline_of_mem_apiFirstLine hc]
  show apiFirstLine _ ++ firstLine (laterLines raml) = _
  rw [firstLine_laterLines, List.append_nil]

theorem trimEnd_apiFirstLine (line : List Char) :
    trimEnd (apiFirstLine line) =
      if trimEnd line = libraryHeader then apiHeader else trimEnd line := by
  unfold apiFirstLine
  split
  · split
    · rfl
    · rfl
  · rfl

/-- **The header of a wrapped document** is that of an API if the library had that of a library, and
the one that the library had if it was another one. -/
theorem header_wrapChars (raml typeName : List Char) :
    header (wrapChars raml typeName) =
      if header raml = libraryHeader then apiHeader else header raml := by
  obtain ⟨ending, hbody, hending⟩ := exists_eq_dropEnd_append isLineBreak
    (apiFirstLine (firstLine raml) ++ laterLines raml)
  calc header (wrapChars raml typeName)
    _ = header (body raml) := by
        rw [wrapChars, List.append_assoc, header, header]
        exact congrArg trimEnd (firstLine_append_newline _ _)
    _ = header (apiFirstLine (firstLine raml) ++ laterLines raml) := by
        rw [← header_append_of_isLineBreak (body raml) hending, body, ← hbody]
    _ = trimEnd (apiFirstLine (firstLine raml)) := by
        rw [header, firstLine_apiFirstLine_append]
    _ = if header raml = libraryHeader then apiHeader else header raml :=
        trimEnd_apiFirstLine _

theorem header_wrap_of_checkHeader {raml : String} (h : checkHeader raml = .ok ())
    (typeName : String) : header (wrap raml typeName).toList = apiHeader := by
  have hheader : header raml.toList = libraryHeader ∨ header raml.toList = apiHeader := by
    rw [checkHeader] at h
    split at h
    · next hfound => simpa using hfound
    · cases h
  rw [wrap, String.toList_ofList, header_wrapChars]
  rcases hheader with hlibrary | hapi
  · rw [if_pos hlibrary]
  · rw [hapi]
    rfl

end Document

end RamlSchema
