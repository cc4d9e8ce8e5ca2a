import RamlSchema.Proofs.Document.Header

/-!
# The first line, read in two ways

The header is checked on the first of the lines of a text, which a carriage return and a line feed
end as well as a line feed alone. The header is rewritten in what stands before the first line feed,
and a carriage return belongs to that. The two differ by that carriage return and by nothing else, so
they are the same without the blanks at their end, and what the check says of a library it says of
the wrapped document too.
-/

namespace RamlSchema.Document

/-- The lines of a text without what ends them: a line feed, or a carriage return and a line feed. A
text that ends with such an end has no empty line behind it, and the empty text has no line. -/
def lines : List Char → List (List Char)
  | [] => []
  | '\n' :: cs => [] :: lines cs
  | '\r' :: '\n' :: cs => [] :: lines cs
  | c :: cs =>
    match lines cs with
    | [] => [[c]]
    | line :: later => (c :: line) :: later

/-- The first of the lines of a text; empty where it has none. -/
def firstOfLines (cs : List Char) : List Char :=
  (lines cs).headD []

theorem firstOfLines_cons {c : Char} {cs : List Char} (hnewline : c ≠ '\n')
    (hreturn : ∀ later, c = '\r' → cs ≠ '\n' :: later) :
    firstOfLines (c :: cs) = c :: firstOfLines cs := by
  rw [firstOfLines, lines, firstOfLines]
  · cases lines cs with
    | nil => rfl
    | cons line later => rfl
  · exact hnewline
  · exact hreturn

theorem trimEnd_cons_congr (c : Char) {cs ds : List Char} (h : trimEnd cs = trimEnd ds) :
    trimEnd (c :: cs) = trimEnd (c :: ds) := by
  have hcons : ∀ es, trimEnd (c :: es) = trimEnd (c :: trimEnd es) := by
    intro es
    obtain ⟨ending, hes, hending⟩ := exists_eq_dropEnd_append isBlank es
    conv => lhs; rw [hes, ← List.cons_append]
    exact dropEnd_append_of_forall _ hending
  rw [hcons, h, ← hcons]

/-- **The header does not depend on how a line may end**: it is the first of the lines of the text
without the blanks at its end. -/
theorem header_eq_trimEnd_firstOfLines (cs : List Char) :
    header cs = trimEnd (firstOfLines cs) := by
  induction cs with
  | nil => rfl
  | cons c cs ih =>
      by_cases hnewline : c = '\n'
      · subst hnewline
        rfl
      · by_cases hreturn : ∃ later, c = '\r' ∧ cs = '\n' :: later
        · obtain ⟨later, rfl, rfl⟩ := hreturn
          rfl
        · have hfirst : firstLine (c :: cs) = c :: firstLine cs :=
            List.takeWhile_cons_of_pos (by simpa using hnewline)
          rw [header, hfirst, firstOfLines_cons hnewline]
          · exact trimEnd_cons_congr c ih
          · intro later hc hcs
            exact hreturn ⟨later, hc, hcs⟩

theorem header_wrap (raml typeName : String) :
    header (wrap raml typeName).toList =
      if header raml.toList = libraryHeader then apiHeader else header raml.toList := by
  rw [wrap, String.toList_ofList, header_wrapChars]

theorem checkHeader_wrap_eq (raml typeName : String) :
    checkHeader (wrap raml typeName) = checkHeader raml := by
  have hwrap := header_wrap raml typeName
  by_cases hlibrary : header raml.toList = libraryHeader
  · rw [if_pos hlibrary] at hwrap
    rw [checkHeader, hwrap, checkHeader, hlibrary]
    rfl
  · rw [if_neg hlibrary] at hwrap
    rw [checkHeader, hwrap, checkHeader]

/-- **The check says of a wrapped document what it says of the library.** A library that is not
refused becomes a document whose first line is that of an API but for blanks at its end, and never
that of a library; one that is refused becomes a document that is refused for the same header. -/
theorem checkHeader_wrap (raml typeName : String) :
    (checkHeader raml = .ok () →
      trimEnd (firstOfLines (wrap raml typeName).toList) = "#%RAML 1.0".toList ∧
      trimEnd (firstOfLines (wrap raml typeName).toList) ≠ "#%RAML 1.0 Library".toList ∧
      checkHeader (wrap raml typeName) = .ok ()) ∧
    ∀ found, checkHeader raml = .error ⟨found⟩ →
      checkHeader (wrap raml typeName) = .error ⟨found⟩ := by
  rw [checkHeader_wrap_eq, ← header_eq_trimEnd_firstOfLines]
  constructor
  · intro hok
    rw [header_wrap_of_checkHeader hok]
    exact ⟨rfl, by decide, hok⟩
  · intro found herror
    exact herror

/-- The header of a library with blanks of many kinds behind it and a carriage return of its own
before the one that ends the line. -/
def spacedLibrary : String :=
  "#%RAML 1.0 Library\u2003\t\r\r\n\r\n"

theorem checkHeader_wrap_spacedLibrary :
    (checkHeader spacedLibrary = .ok () ∧
      firstLine spacedLibrary.toList ≠ firstOfLines spacedLibrary.toList ∧
      trimEnd (firstOfLines (wrap spacedLibrary "Cat").toList) = "#%RAML 1.0".toList ∧
      checkHeader (wrap spacedLibrary "Cat") = .ok ()) ∧
    checkHeader (wrap "\r#%RAML 1.0 \r\n" "Cat") = .error ⟨"\r#%RAML 1.0"⟩ := by
  have hpassed : checkHeader spacedLibrary = .ok () := by rfl
  obtain ⟨hfirst, -, hdocument⟩ := (checkHeader_wrap spacedLibrary "Cat").1 hpassed
  have hrefused := (checkHeader_wrap "\r#%RAML 1.0 \r\n" "Cat").2 "\r#%RAML 1.0" (by rfl)
  exact ⟨⟨hpassed, by decide, hfirst, hdocument⟩, hrefused⟩

end RamlSchema.Document
