import RamlSchema.Proofs.Document.Header

/-!
# What wrapping keeps of a library

A wrapped document begins with the library as far as that has text: all of it but the line breaks at
its end, with the header of an API where it had that of a library. The line breaks are taken off after
the header has been rewritten, and where there is nothing but line breaks behind the header they may
begin inside the first line. So the library is divided twice, at its first line feed and where the line
breaks at its end begin, and the proofs go by which of the two comes first.
-/

namespace RamlSchema

namespace Document

/-- A text that does not end with a line break; also the empty one. -/
def EndsInText (cs : List Char) : Prop :=
  ∀ c ∈ cs.getLast?, isLineBreak c = false

/-- What a document has of a text that ends in no line break: the text itself, unless its first line
reads as the header of a library. Then that of an API stands in the place of this line, and the
carriage return at its end stays if there are more lines. -/
inductive Keeps : List Char → List Char → Prop
  | other {text : List Char} (h : header text ≠ libraryHeader) : Keeps text text
  | alone {line : List Char} (hline : '\n' ∉ line) (h : trimEnd line = libraryHeader) :
      Keeps line apiHeader
  | lineFeed {line later : List Char} (hline : '\n' ∉ line) (h : trimEnd line = libraryHeader)
      (hreturn : line.getLast? ≠ some '\r') :
      Keeps (line ++ '\n' :: later) (apiHeader ++ '\n' :: later)
  | carriageReturn {line later : List Char} (hline : '\n' ∉ line)
      (h : trimEnd (line ++ ['\r']) = libraryHeader) :
      Keeps (line ++ '\r' :: '\n' :: later) (apiHeader ++ '\r' :: '\n' :: later)

theorem laterLines_eq_nil {cs : List Char} (h : '\n' ∉ cs) : laterLines cs = [] := by
  have hall := firstLine_append_laterLines cs
  rwa [firstLine_eq_self h, List.append_right_eq_self] at hall

theorem laterLines_append_of_mem {cs : List Char} (h : '\n' ∈ cs) (ds : List Char) :
    laterLines (cs ++ ds) = laterLines cs ++ ds := by
  have hall : firstLine (cs ++ ds) ++ laterLines (cs ++ ds) = firstLine cs ++ laterLines cs ++ ds := by
    rw [firstLine_append_laterLines, firstLine_append_laterLines]
  rw [firstLine_append_of_mem h, List.append_assoc] at hall
  exact List.append_cancel_left hall

theorem laterLines_append_of_not_mem {cs : List Char} (h : '\n' ∉ cs) (ds : List Char) :
    laterLines (cs ++ ds) = laterLines ds :=
  List.dropWhile_append_of_pos fun _ hc => bne_iff_ne.mpr fun heq => h (heq ▸ hc)

theorem eq_newline_of_laterLines {cs later : List Char} {c : Char}
    (h : laterLines cs = c :: later) : c = '\n' := by
  have hfirst := firstLine_laterLines cs
  rw [h, firstLine] at hfirst
  by_contra hne
  rw [List.takeWhile_cons, if_pos (bne_iff_ne.mpr hne)] at hfirst
  cases hfirst

theorem dropEnd_apiFirstLine_of_library {line : List Char} (h : trimEnd line = libraryHeader) :
    dropEnd isLineBreak (apiFirstLine line) = apiHeader := by
  rw [apiFirstLine, if_pos h]
  split <;> rfl

theorem dropEnd_apiFirstLine_append {line ending : List Char}
    (h : ∀ c ∈ ending, isLineBreak c = true) :
    dropEnd isLineBreak (apiFirstLine (line ++ ending)) = dropEnd isLineBreak (apiFirstLine line) := by
  have htrim : trimEnd (line ++ ending) = trimEnd line :=
    dropEnd_append_of_forall line fun c hc => isBlank_of_isLineBreak (h c hc)
  by_cases hlibrary : trimEnd line = libraryHeader
  · rw [dropEnd_apiFirstLine_of_library hlibrary,
      dropEnd_apiFirstLine_of_library (htrim.trans hlibrary)]
  · rw [apiFirstLine, if_neg (htrim ▸ hlibrary), apiFirstLine, if_neg hlibrary,
      dropEnd_append_of_forall line h]

/-- Line breaks behind a library do not come into the document. If it has a line feed they stand behind
that, and are dropped at the end; if not, its only line goes on into them, and is dropped from there
on. -/
theorem body_append_of_isLineBreak (raml : List Char) {breaks : List Char}
    (h : ∀ c ∈ breaks, isLineBreak c = true) : body (raml ++ breaks) = body raml := by
  by_cases hnewline : '\n' ∈ raml
  · rw [body, firstLine_append_of_mem hnewline, laterLines_append_of_mem hnewline,
      ← List.append_assoc, dropEnd_append_of_forall _ h, body]
  · have hinFirst : ∀ c ∈ firstLine breaks, isLineBreak c = true :=
      fun c hc => h c ((List.takeWhile_prefix _).subset hc)
    have hinLater : ∀ c ∈ laterLines breaks, isLineBreak c = true :=
      fun c hc => h c ((List.dropWhile_suffix _).subset hc)
    rw [body, firstLine_append_of_not_mem hnewline, laterLines_append_of_not_mem hnewline,
      dropEnd_append_of_forall _ hinLater, dropEnd_apiFirstLine_append hinFirst, body,
      firstLine_eq_self hnewline, laterLines_eq_nil hnewline, List.append_nil]

theorem endsInText_body (raml : List Char) : EndsInText (body raml) :=
  fun _ hc => eq_false_of_mem_getLast?_dropEnd hc

theorem keeps_body {text : List Char} (htext : EndsInText text) : Keeps text (body text) := by
  have hsplit := firstLine_append_laterLines text
  by_cases hlibrary : header text = libraryHeader
  · cases hlater : laterLines text with
    | nil =>
        have hline : firstLine text = text := by rwa [hlater, List.append_nil] at hsplit
        rw [body, hlater, List.append_nil, dropEnd_apiFirstLine_of_library hlibrary]
        refine .alone ?_ ?_
        · exact hline ▸ newline_not_mem_firstLine text
        · exact hline ▸ hlibrary
    | cons c later =>
        obtain rfl := eq_newline_of_laterLines hlater
        rw [hlater] at hsplit
        have hend : ∀ c ∈ ('\n' :: later).getLast?, isLineBreak c = false := by
          intro c hc
          apply htext
          rwa [← hsplit, List.getLast?_append_of_ne_nil _ (List.cons_ne_nil _ _)]
        have hline := newline_not_mem_firstLine text
        rw [header] at hlibrary
        rw [body, hlater, dropEnd_append_of_ne_nil (List.cons_ne_nil _ _) hend, apiFirstLine,
          if_pos hlibrary]
        generalize firstLine text = line at hsplit hline hlibrary ⊢
        subst hsplit
        split
        · next hreturn =>
            obtain ⟨start, rfl⟩ := List.getLast?_eq_some_iff.mp hreturn
            rw [List.append_assoc, List.append_assoc]
            apply Keeps.carriageReturn
            · exact fun h => hline (List.mem_append_left _ h)
            · exact hlibrary
        · next hreturn =>
            rw [List.append_nil]
            exact .lineFeed hline hlibrary hreturn
  · have hfirst : apiFirstLine (firstLine text) = firstLine text := if_neg hlibrary
    rw [body, hfirst, hsplit, dropEnd_eq_self htext]
    exact .other hlibrary

theorem ofList_resource (typeName : String) : String.ofList (resource typeName.toList) =
    "/for/conversion/" ++ typeName ++
      (":\n  get:\n    responses:\n      200:\n        body:\n" ++
        "          application/json:\n            type: ") ++ typeName := by
  have hjoin : ∀ a b c d : String,
      String.ofList (a.toList ++ b.toList ++ c.toList ++ d.toList) = a ++ b ++ c ++ d := by
    intro a b c d
    simp only [String.ofList_append, String.ofList_toList]
  exact hjoin _ typeName _ typeName

/-- **Wrapping loses nothing but the line breaks at the end.** A library is a text with line breaks
behind it, and what the document keeps of this text stands in front of an empty line and the resource.
So more line breaks at the end of a library make no other document. -/
theorem exists_keeps_wrap (raml typeName : String) :
    (∃ text breaks kept : List Char,
      raml.toList = text ++ breaks ∧ (∀ c ∈ breaks, isLineBreak c = true) ∧ EndsInText text ∧
      header raml.toList = header text ∧ Keeps text kept ∧ EndsInText kept ∧
      wrap raml typeName = String.ofList kept ++ "\n\n" ++
        ("/for/conversion/" ++ typeName ++
          (":\n  get:\n    responses:\n      200:\n        body:\n" ++
            "          application/json:\n            type: ") ++ typeName)) ∧
    ∀ breaks : String, (∀ c ∈ breaks.toList, isLineBreak c = true) →
      wrap (raml ++ breaks) typeName = wrap raml typeName := by
  constructor
  · obtain ⟨breaks, hraml, hbreaks⟩ := exists_eq_dropEnd_append isLineBreak raml.toList
    have htext : EndsInText (dropEnd isLineBreak raml.toList) :=
      fun c hc => eq_false_of_mem_getLast?_dropEnd hc
    refine ⟨_, breaks, body raml.toList, hraml, hbreaks, htext, ?_, ?_, endsInText_body _, ?_⟩
    · conv => lhs; rw [hraml]
      exact header_append_of_isLineBreak _ hbreaks
    · conv => rhs; rw [hraml, body_append_of_isLineBreak _ hbreaks]
      exact keeps_body htext
    · rw [wrap, wrapChars, String.ofList_append, String.ofList_append, ofList_resource]
  · intro breaks hbreaks
    rw [wrap, String.toList_append, wrapChars, body_append_of_isLineBreak _ hbreaks, ← wrapChars,
      ← wrap]

/-- A library whose lines end with a carriage return and a line feed. -/
def petLibrary : String :=
  "#%RAML 1.0 Library \r\ntypes:\r\n  Pet: string\r\n"

theorem exists_keeps_wrap_petLibrary :
    (wrap (petLibrary ++ "\r\r\n") "Pet" = wrap petLibrary "Pet" ∧
      body petLibrary.toList = "#%RAML 1.0\r\ntypes:\r\n  Pet: string".toList) ∧
    wrap ("#%RAML 1.0 Library \r" ++ "\n\r") "Pet" = wrap "#%RAML 1.0 Library \r" "Pet" ∧
      body "#%RAML 1.0 Library \r".toList = "#%RAML 1.0".toList := by
  refine ⟨⟨?_, by decide⟩, ?_, by decide⟩
  · exact (exists_keeps_wrap petLibrary "Pet").2 "\r\r\n" (by simp [isLineBreak])
  · exact (exists_keeps_wrap "#%RAML 1.0 Library \r" "Pet").2 "\n\r" (by simp [isLineBreak])

end Document

end RamlSchema
