import RamlSchema.Proofs.Text.Ends
import RamlSchema.Proofs.Validity

/-!
# The URIs of the drafts

A draft has one location, which may stand behind either scheme and in front of a `#`. The look-up
drops every `#` at the end before it compares, so the URIs that name a draft are those with any
number of them, and not only those with one at most. A schema declares a draft by such a URI or by
none at all; everything else under the name for it is reported as what was not found.
-/

namespace RamlSchema

namespace Draft

def schemes : List String :=
  ["http://", "https://"]

/-- A URI of a draft: one of the schemes, the location, and so many `#` behind it. -/
def IsUri (d : Draft) (marks : Nat) (uri : String) : Prop :=
  ∃ scheme ∈ schemes, uri = scheme ++ d.location ++ String.ofList (List.replicate marks '#')

theorem ofLocation?_location (d : Draft) : ofLocation? d.location.toList = some d := by
  cases d <;> decide

theorem ofLocation?_eq_some_iff {cs : List Char} {d : Draft} :
    ofLocation? cs = some d ↔ cs = d.location.toList := by
  constructor
  · intro h
    unfold ofLocation? at h
    split_ifs at h with h04 h06 h07
    · exact Option.some.inj h ▸ h04
    · exact Option.some.inj h ▸ h06
    · exact Option.some.inj h ▸ h07
  · rintro rfl
    exact ofLocation?_location d

/-- Without the marks a URI is a scheme and a location. The schemes differ where the first one ends,
so what begins with one of them does not begin with the other. -/
theorem ofMetaSchemaUri?_eq_some_iff_dropEnd {uri : String} {d : Draft} :
    ofMetaSchemaUri? uri = some d ↔
      ∃ scheme ∈ schemes, dropEnd (· == '#') uri.toList = (scheme ++ d.location).toList := by
  rw [ofMetaSchemaUri?]
  generalize dropEnd (· == '#') uri.toList = cs
  simp only [schemes, List.mem_cons, List.not_mem_nil, or_false, exists_eq_or_imp, exists_eq_left,
    String.toList_append]
  constructor
  · intro h
    split at h
    · next rest hrest =>
        rw [ofLocation?_eq_some_iff] at h
        exact .inr (h ▸ afterStart?_eq_some_iff.mp hrest)
    · obtain ⟨rest, hrest, hlocation⟩ := Option.bind_eq_some_iff.mp h
      rw [ofLocation?_eq_some_iff] at hlocation
      exact .inl (hlocation ▸ afterStart?_eq_some_iff.mp hrest)
  · rintro (rfl | rfl)
    · have hother : ∀ rest, afterStart? "https://".toList ("http://".toList ++ rest) = none :=
        fun _ => rfl
      rw [hother, afterStart?_eq_some_iff.mpr rfl]
      exact ofLocation?_location d
    · rw [afterStart?_eq_some_iff.mpr rfl]
      exact ofLocation?_location d

theorem mark_not_mem_getLast?_location (d : Draft) (scheme : String) :
    '#' ∉ (scheme ++ d.location).toList.getLast? := by
  have hlast : d.location.toList.getLast? = some 'a' := by cases d <;> decide
  rw [String.toList_append, List.getLast?_append, hlast, Option.some_or]
  decide

theorem ofMetaSchemaUri?_eq_some_iff {uri : String} {d : Draft} :
    ofMetaSchemaUri? uri = some d ↔ ∃ marks, d.IsUri marks uri := by
  have hmarks : ∀ scheme : String, dropEnd (· == '#') uri.toList = (scheme ++ d.location).toList ↔
      ∃ marks, uri = scheme ++ d.location ++ String.ofList (List.replicate marks '#') := by
    intro scheme
    rw [dropEnd_eq_iff (mark_not_mem_getLast?_location d scheme)]
    refine exists_congr fun marks => ?_
    have htext : (scheme ++ d.location ++ String.ofList (List.replicate marks '#')).toList =
        (scheme ++ d.location).toList ++ List.replicate marks '#' := by
      rw [String.toList_append, String.toList_ofList]
    rw [← htext, String.toList_inj]
  rw [ofMetaSchemaUri?_eq_some_iff_dropEnd]
  simp only [hmarks, IsUri]
  constructor
  · rintro ⟨scheme, hscheme, marks, huri⟩
    exact ⟨marks, scheme, hscheme, huri⟩
  · rintro ⟨marks, scheme, hscheme, huri⟩
    exact ⟨scheme, hscheme, marks, huri⟩

/-- Neither a scheme nor a location has a mark in it, so all of them stand behind the location. -/
theorem IsUri.count_eq {d : Draft} {marks : Nat} {uri : String} (h : d.IsUri marks uri) :
    uri.toList.count '#' = marks := by
  obtain ⟨scheme, hscheme, rfl⟩ := h
  have hscheme : scheme.toList.count '#' = 0 := by
    rcases List.mem_pair.mp hscheme with rfl | rfl
    · decide
    · decide
  have hlocation : d.location.toList.count '#' = 0 := by cases d <;> decide
  rw [String.toList_append, String.toList_append, String.toList_ofList, List.count_append,
    List.count_append, List.count_replicate_self, hscheme, hlocation]
  omega

theorem IsUri.marks_eq {d d' : Draft} {marks marks' : Nat} {uri : String} (h : d.IsUri marks uri)
    (h' : d'.IsUri marks' uri) : marks = marks' :=
  h.count_eq.symm.trans h'.count_eq

/-- The look-up of a URI goes by the drafts' URIs with an allowed number of marks. -/
def FindsWith (allowed : Nat → Prop) (uri : String) : Prop :=
  ∀ d, ofMetaSchemaUri? uri = some d ↔ ∃ marks, allowed marks ∧ d.IsUri marks uri

theorem findsWith_iff {allowed : Nat → Prop} {uri : String} :
    FindsWith allowed uri ↔ ∀ d marks, IsUri d marks uri → allowed marks := by
  constructor
  · intro h d marks huri
    obtain ⟨marks', hallowed, huri'⟩ := (h d).mp (ofMetaSchemaUri?_eq_some_iff.mpr ⟨marks, huri⟩)
    exact huri.marks_eq huri' ▸ hallowed
  · intro h d
    rw [ofMetaSchemaUri?_eq_some_iff]
    exact exists_congr fun marks => (and_iff_right_of_imp (h d marks)).symm

end Draft

/-- A schema declares a draft by such a URI, or draft 04 by none. What is not found is named: a text by
itself, and any other value by its text. -/
structure DeclaresWith (allowed : Nat → Prop) (v : Json) : Prop where
  ok : ∀ d, declaredDraft v = .ok d ↔ v.member? "$schema" = none ∧ d = .draft04 ∨
    ∃ uri, v.member? "$schema" = some (.string uri) ∧ ∃ marks, allowed marks ∧ d.IsUri marks uri
  error : ∀ e, declaredDraft v = .error e ↔
    (∃ uri, v.member? "$schema" = some (.string uri) ∧
      (∀ d marks, allowed marks → ¬Draft.IsUri d marks uri) ∧ e = .unknownDraft uri) ∨
    ∃ w, v.member? "$schema" = some w ∧ (∀ uri, w ≠ .string uri) ∧ e = .unknownDraft w.compact

variable {v : Json}

theorem declaredDraft_eq_error_iff {e : ValidityError} :
    declaredDraft v = .error e ↔
      (∃ uri, v.member? "$schema" = some (.string uri) ∧ Draft.ofMetaSchemaUri? uri = none ∧
        e = .unknownDraft uri) ∨
      ∃ w, v.member? "$schema" = some w ∧ (∀ uri, w ≠ .string uri) ∧
        e = .unknownDraft w.compact := by
  rw [declaredDraft]
  cases v.member? "$schema" with
  | none => simp
  | some w =>
      cases w with
      | string uri => cases hdraft : Draft.ofMetaSchemaUri? uri <;> simp [hdraft, eq_comm]
      | _ => simp [eq_comm]

theorem declaresWith_iff {allowed : Nat → Prop} :
    DeclaresWith allowed v ↔
      ∀ uri, v.member? "$schema" = some (.string uri) → Draft.FindsWith allowed uri := by
  constructor
  · intro h uri hmember d
    have hok := h.ok d
    rw [declaredDraft_eq_ok_iff] at hok
    simpa [hmember] using hok
  · intro h
    constructor
    case ok =>
      intro d
      rw [declaredDraft_eq_ok_iff]
      refine or_congr_right (exists_congr fun uri => and_congr_right fun hmember => ?_)
      exact h uri hmember d
    case error =>
      intro e
      rw [declaredDraft_eq_error_iff]
      refine or_congr_left (exists_congr fun uri => and_congr_right fun hmember => ?_)
      refine and_congr_left fun _ => ?_
      rw [Option.eq_none_iff_forall_ne_some]
      refine forall_congr' fun d => ?_
      rw [ne_eq, h uri hmember d, not_exists]
      exact forall_congr' fun marks => not_and

/-- **Which URIs name a draft.** Either scheme may stand in front of a location, and any number of
marks behind it, and nothing else is found; a schema declares its draft by these URIs. So that there
is one mark at most is kept to by all URIs but those of a draft with more of them, and by all schemas
but those that have such a URI under the name for their draft. -/
theorem findsWith_le_one_iff (uri : String) (v : Json) :
    Draft.FindsWith (fun _ => True) uri ∧
      DeclaresWith (fun _ => True) v ∧
      (Draft.FindsWith (fun marks => marks ≤ 1) uri ↔
        ¬∃ d marks, 1 < marks ∧ Draft.IsUri d marks uri) ∧
      (DeclaresWith (fun marks => marks ≤ 1) v ↔
        ¬∃ s d marks, v.member? "$schema" = some (.string s) ∧ 1 < marks ∧
          Draft.IsUri d marks s) := by
  have hany : ∀ s, Draft.FindsWith (fun _ => True) s := fun s =>
    Draft.findsWith_iff.mpr fun _ _ _ => trivial
  have hone : ∀ s, Draft.FindsWith (fun marks => marks ≤ 1) s ↔
      ¬∃ d marks, 1 < marks ∧ Draft.IsUri d marks s := by
    intro s
    rw [Draft.findsWith_iff]
    constructor
    · rintro h ⟨d, marks, hmarks, huri⟩
      exact absurd (h d marks huri) (Nat.not_le.mpr hmarks)
    · intro h d marks huri
      exact Nat.not_lt.mp fun hmarks => h ⟨d, marks, hmarks, huri⟩
  refine ⟨hany uri, declaresWith_iff.mpr fun s _ => hany s, hone uri, ?_⟩
  rw [declaresWith_iff]
  constructor
  · rintro h ⟨s, d, marks, hmember, huri⟩
    exact (hone s).mp (h s hmember) ⟨d, marks, huri⟩
  · intro h s hmember
    exact (hone s).mpr fun ⟨d, marks, huri⟩ => h ⟨s, d, marks, hmember, huri⟩

/-- A location with two marks behind it. -/
def twiceMarkedUri : String :=
  "http://json-schema.org/draft-04/schema##"

theorem isUri_twiceMarkedUri : Draft.draft04.IsUri 2 twiceMarkedUri :=
  ⟨"http://", List.mem_cons_self, by decide⟩

/-- Not only a single mark is dropped. -/
theorem not_forall_marks_le_one :
    ¬∀ (uri : String) (d : Draft),
      Draft.ofMetaSchemaUri? uri = some d ↔ ∃ marks ≤ 1, d.IsUri marks uri := by
  intro h
  obtain ⟨marks, hmarks, huri⟩ := (h twiceMarkedUri .draft04).mp (by decide)
  have htwo := huri.marks_eq isUri_twiceMarkedUri
  omega

end RamlSchema
