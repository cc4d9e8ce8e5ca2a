import RamlSchema.Json.Pointer

/-!
# Segments of a pointer

Escaping leaves no slash in a segment, so the slashes of a pointer are those in front of its
segments, and a segment is got back by replacing the escapes in the opposite order.
-/

namespace RamlSchema.Pointer

theorem escape_cons (c : Char) (cs : List Char) :
    escape (c :: cs) =
      (if c = '~' then ['~', '0'] else if c = '/' then ['~', '1'] else [c]) ++ escape cs :=
  rfl

theorem slash_not_mem_escape (cs : List Char) : '/' ∉ escape cs := by
  simp only [escape, List.mem_flatMap, not_exists, not_and]
  intro c _ hslash
  split at hslash
  · simp at hslash
  · split at hslash
    · simp at hslash
    · next hne => exact hne (List.mem_singleton.mp hslash).symm

section Replace

variable {digit c a b : Char} (rest : List Char)

theorem replaceEscape_escape :
    replaceEscape digit c ('~' :: digit :: rest) = c :: replaceEscape digit c rest := by
  rw [replaceEscape, if_pos (by simp)]

theorem replaceEscape_of_ne (ha : a ≠ '~') :
    replaceEscape digit c (a :: rest) = a :: replaceEscape digit c rest := by
  cases rest with
  | nil => rfl
  | cons b rest => rw [replaceEscape, if_neg (by simp [ha])]

/-- An escape with another digit stays, and does not take part in one that follows. -/
theorem replaceEscape_other (hb : b ≠ digit) (htilde : b ≠ '~') :
    replaceEscape digit c ('~' :: b :: rest) = '~' :: b :: replaceEscape digit c rest := by
  rw [replaceEscape, if_neg (by simp [hb]), replaceEscape_of_ne rest htilde]

end Replace

/-- What is left to replace once the slashes are back. -/
def escapeTildes (cs : List Char) : List Char :=
  cs.flatMap fun c => if c = '~' then ['~', '0'] else [c]

theorem replaceEscape_slashes (cs : List Char) :
    replaceEscape '1' '/' (escape cs) = escapeTildes cs := by
  induction cs with
  | nil => rfl
  | cons c cs ih =>
      rw [escape_cons, escapeTildes, List.flatMap_cons, ← escapeTildes, ← ih]
      by_cases htilde : c = '~'
      · subst htilde
        exact replaceEscape_other _ (by decide) (by decide)
      · rw [if_neg htilde, if_neg htilde]
        by_cases hslash : c = '/'
        · subst hslash
          exact replaceEscape_escape _
        · rw [if_neg hslash]
          exact replaceEscape_of_ne _ htilde

theorem replaceEscape_tildes (cs : List Char) :
    replaceEscape '0' '~' (escapeTildes cs) = cs := by
  induction cs with
  | nil => rfl
  | cons c cs ih =>
      rw [escapeTildes, List.flatMap_cons, ← escapeTildes]
      split
      · next htilde =>
          rw [htilde, List.cons_append, List.cons_append, List.nil_append, replaceEscape_escape, ih]
      · next htilde => rw [List.singleton_append, replaceEscape_of_ne _ htilde, ih]

theorem unescape_escape (cs : List Char) : unescape (escape cs) = cs := by
  rw [unescape, replaceEscape_slashes, replaceEscape_tildes]

theorem ofSegments_cons (s : List Char) (segments : List (List Char)) :
    ofSegments (s :: segments) = '/' :: (escape s ++ ofSegments segments) :=
  rfl

/-- Split at its slashes, a pointer gives what is in front of the first one and then its segments,
escaped. -/
theorem splitOn_append_ofSegments {front : List Char} (hfront : '/' ∉ front)
    (segments : List (List Char)) :
    (front ++ ofSegments segments).splitOn '/' = front :: segments.map escape := by
  induction segments generalizing front with
  | nil => exact (congrArg _ (List.append_nil front)).trans (List.splitOn_eq_singleton hfront)
  | cons s segments ih =>
      rw [ofSegments_cons, List.splitOn_append_cons_self_of_not_mem hfront,
        ih (slash_not_mem_escape s), List.map_cons]

/-- Behind its first slash a pointer has its segments and nothing else. -/
theorem map_unescape_tail_splitOn_ofSegments (segments : List (List Char)) :
    ((ofSegments segments).splitOn '/').tail.map unescape = segments := by
  have hnone : '/' ∉ ([] : List Char) := List.not_mem_nil
  have hsplit := splitOn_append_ofSegments hnone segments
  rw [List.nil_append] at hsplit
  rw [hsplit, List.tail_cons, List.map_map]
  exact List.map_id'' unescape_escape segments

theorem dataPath_eq (pointer : List Char) :
    dataPath pointer =
      "data".toList ++ ((pointer.splitOn '/').tail.map unescape).flatMap fun s => '.' :: s := by
  rw [dataPath, List.flatMap_map]

/-- **The dotted path of a pointer has its segments as they were before they were escaped.** It is
`data` with a dot before each of them, whatever slashes and tildes they have. -/
theorem dataPath_ofSegments (segments : List (List Char)) :
    dataPath (ofSegments segments) = "data".toList ++ segments.flatMap fun s => '.' :: s := by
  rw [dataPath_eq, map_unescape_tail_splitOn_ofSegments]

/-- Were the tildes put back first, the one in front of this digit would be taken for an escape. -/
example : replaceEscape '1' '/' (replaceEscape '0' '~' (escape ['~', '1'])) = ['/'] := by
  decide

end RamlSchema.Pointer
