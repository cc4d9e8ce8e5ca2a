import RamlSchema.Proofs.CommandLine.Files
import RamlSchema.Proofs.Conversion.Texts
import RamlSchema.Proofs.Fix.Growth

/-!
# Stages that pass files on

Fixing and migrating can be done in one process or in two, with a file in between. The file holds
the same schema as long as the reader can go as deep as the fixed schema is nested: a file type is
described two levels deeper, and so a schema that could just be read may become one that cannot.
-/

namespace RamlSchema

open Json

variable {m : Type → Type} [Monad m] [LawfulMonad m] {host : Host m} {path text : String}

namespace CommandLine

theorem runTask_fix (h : host.Holds path text) (d : Destination) :
    runTask host (.fix path d) = deliverSchema host d ((loadSchemaText text).map fixSchema) := by
  rw [runTask, runFix, h.loadSchema, pure_bind]

theorem runTask_migrate (h : host.Holds path text) (draft : Draft) (d : Destination) :
    runTask host (.migrate path draft.selector d) =
      deliverSchema host d ((loadSchemaText text).map (migrate · draft)) := by
  rw [runTask, runMigrate, Draft.ofSelector?_selector]
  dsimp only
  rw [h.loadSchema, pure_bind]

theorem layOut_eq_text (pretty : Bool) (v : Json) :
    layOut pretty v = (if pretty then Layout.pretty else Layout.compact).text v := by
  cases pretty <;> rfl

/-- **A fixed schema can be migrated from the file that it was printed to.** What is printed for a
schema with integers, and with such doubles only as are read back from their texts, is read as the
fixed schema, and migrated as in one process, if it is nested at most 127 levels deep. If it is
deeper, it is refused for this reason. Fixing adds two levels at most for each file in which a place
lies. -/
theorem runTask_migrate_of_runTask_fix (hfile : host.Holds path text) {v : Json}
    (hload : loadSchemaText text = .ok v)
    (hnumbers : ∀ n ∈ v.allNumbers, n.isIntegerLiteral = true ∨ n.IsKept) (pretty : Bool) :
    runTask host (.fix path ⟨none, pretty⟩) =
        pure ⟨0, layOut pretty (fixSchema v) ++ "\n", ""⟩ ∧
      v.depth ≤ 127 ∧ (fixSchema v).depth ≤ v.depth + 2 * v.fileDepth ∧
      ((fixSchema v).depth ≤ 127 →
        loadSchemaText (layOut pretty (fixSchema v) ++ "\n") = .ok (fixSchema v) ∧
        ∀ (host' : Host m) path', host'.Holds path' (layOut pretty (fixSchema v) ++ "\n") →
          ∀ (draft : Draft) pretty', runTask host' (.migrate path' draft.selector ⟨none, pretty'⟩) =
            pure ⟨0, layOut pretty' (migrate (fixSchema v) draft) ++ "\n", ""⟩) ∧
      (127 < (fixSchema v).depth → ∃ e, e.cause = .tooDeep ∧
        loadSchemaText (layOut pretty (fixSchema v) ++ "\n") = .error (.invalidJson e) ∧
        ∀ (host' : Host m) path', host'.Holds path' (layOut pretty (fixSchema v) ++ "\n") →
          ∀ (draft : Draft) pretty', runTask host' (.migrate path' draft.selector ⟨none, pretty'⟩) =
            pure (.failure (.invalidJson e))) := by
  have hread := isRead_of_loadSchemaText hload
  have hnames := hasDistinctNames_fixSchema hread.hasDistinctNames
  have hkept : (fixSchema v).KeepsNumbers := by
    intro n hn
    have hn := allNumbers_fixSchema hn
    rcases hnumbers n hn with hinteger | hkept
    · exact (hread.isWordOrFloat n hn hinteger).isKept
    · exact hkept
  have hblank : ∀ b ∈ "\n".octets, isSpace b = true := List.forall_mem_singleton.mpr rfl
  obtain ⟨hfits, hdeep⟩ := loadSchemaText_text
    (if pretty then Layout.pretty else Layout.compact) hnames hkept hblank
  rw [← layOut_eq_text] at hfits hdeep
  refine ⟨?_, hread.depth_le, depth_fixSchema_le v, fun hdepth => ?_, fun hdepth => ?_⟩
  · rw [runTask_fix hfile, hload]
    rfl
  · refine ⟨hfits hdepth, fun host' path' hfile' draft pretty' => ?_⟩
    rw [runTask_migrate hfile', hfits hdepth]
    rfl
  · obtain ⟨e, hfault, hcause⟩ := hdeep hdepth
    refine ⟨e, hcause, hfault, fun host' path' hfile' draft pretty' => ?_⟩
    rw [runTask_migrate hfile', hfault]
    rfl

end CommandLine

/-! ### A file at the bottom -/

/-- A file type, so many objects deep. -/
def nestedFile : Nat → Json
  | 0 => .object [("type", .string "file")]
  | n + 1 => .object [("a", nestedFile n)]

/-- The binary string that the file type becomes. -/
def nestedBinary : Nat → Json
  | 0 => .object [("type", .string "string"),
      ("media", .object [("binaryEncoding", .string "binary")])]
  | n + 1 => .object [("a", nestedBinary n)]

theorem fixSchema_nestedFile (n : Nat) : fixSchema (nestedFile n) = nestedBinary n := by
  induction n with
  | zero => rfl
  | succ n ih =>
      have hinert : Inert [("a", nestedFile n)] := ⟨by simp, by simp, rfl⟩
      rw [nestedFile, walks_fixSchema.inert _ hinert, Members.mapValues_cons, ih]
      rfl

theorem depth_nestedFile (n : Nat) : (nestedFile n).depth = n + 1 := by
  induction n with
  | zero => rfl
  | succ n ih => rw [nestedFile, depth, depthMembers, ih, depthMembers, Nat.max_eq_left (by omega)]

theorem depth_nestedBinary (n : Nat) : (nestedBinary n).depth = n + 2 := by
  induction n with
  | zero => rfl
  | succ n ih =>
      rw [nestedBinary, depth, depthMembers, ih, depthMembers, Nat.max_eq_left (by omega)]

theorem allNumbers_nestedFile (n : Nat) : (nestedFile n).allNumbers = [] := by
  induction n with
  | zero => rfl
  | succ n ih =>
      rw [nestedFile, allNumbers, allNumbersMembers, ih]
      rfl

theorem forall_mem_allNumbers_nestedFile {p : Number → Prop} (n : Nat) :
    ∀ x ∈ (nestedFile n).allNumbers, p x := by
  intro x hx
  rw [allNumbers_nestedFile] at hx
  exact absurd hx List.not_mem_nil

theorem hasDistinctNames_nestedFile (n : Nat) : (nestedFile n).HasDistinctNames := by
  induction n with
  | zero => exact ⟨by simp, trivial, trivial⟩
  | succ n ih => exact ⟨by simp, ih, trivial⟩

theorem loadSchemaText_nestedFile {n : Nat} (hn : n < 127) :
    loadSchemaText (nestedFile n).compact = .ok (nestedFile n) := by
  have hkept : (nestedFile n).KeepsNumbers := forall_mem_allNumbers_nestedFile n
  have hdepth : (nestedFile n).depth ≤ nestingLimit := by
    rw [depth_nestedFile]
    exact hn
  exact loadSchemaText_text_alone .compact (hasDistinctNames_nestedFile n) hkept hdepth

theorem loadSchemaText_eq_ok {text : String} {v : Json}
    (h : (loadSchemaText text).toOption = some v) : loadSchemaText text = .ok v := by
  cases hload : loadSchemaText text with
  | error e =>
      rw [hload] at h
      cases h
  | ok w =>
      rw [hload] at h
      exact congrArg Except.ok (Option.some.inj h)

/-- Two bounds, of which the lower one is read as a double and the upper one is the greatest integer
of 64 bits. -/
def boundsText : String :=
  "\x7b\"minimum\":-0,\"maximum\":18446744073709551615\x7d"

def boundsSchema : Json :=
  .object [
    ("minimum", .number (.float (Binary64.zero true))),
    ("maximum", .number (.integer 18446744073709551615))]

theorem loadSchemaText_boundsText : loadSchemaText boundsText = .ok boundsSchema :=
  loadSchemaText_eq_ok (by decide +kernel)

theorem isKept_boundsSchema :
    ∀ n ∈ boundsSchema.allNumbers, n.isIntegerLiteral = true ∨ n.IsKept := by
  intro n hn
  rcases List.mem_cons.mp hn with rfl | hn
  · exact .inr Number.isKept_negativeZero
  · rw [List.mem_singleton.mp hn]
    exact .inl rfl

namespace CommandLine

/-- With 125 objects around it the file can be passed on, with one more it is too deep. -/
theorem runTask_migrate_nestedFile :
    runTask (oneFile "fixed.json" (layOut true (nestedBinary 125) ++ "\n"))
        (.migrate "fixed.json" "07" ⟨none, false⟩) =
      pure ⟨0, (migrate (nestedBinary 125) .draft07).compact ++ "\n", ""⟩ ∧
    (∃ e, e.cause = .tooDeep ∧
      runTask (oneFile "fixed.json" (layOut true (nestedBinary 126) ++ "\n"))
          (.migrate "fixed.json" "07" ⟨none, false⟩) =
        pure (.failure (.invalidJson e))) ∧
    runTask (oneFile "fixed.json" (layOut false boundsSchema ++ "\n"))
        (.migrate "fixed.json" "06" ⟨none, true⟩) =
      pure ⟨0, (migrate boundsSchema .draft06).pretty ++ "\n", ""⟩ := by
  obtain ⟨_, _, _, hfits, _⟩ := runTask_migrate_of_runTask_fix (holds_oneFile "in.json" _)
    (loadSchemaText_nestedFile (n := 125) (by decide)) (forall_mem_allNumbers_nestedFile 125) true
  obtain ⟨_, _, _, _, hdeep⟩ := runTask_migrate_of_runTask_fix (holds_oneFile "in.json" _)
    (loadSchemaText_nestedFile (n := 126) (by decide)) (forall_mem_allNumbers_nestedFile 126) true
  obtain ⟨_, _, _, hbounds, _⟩ := runTask_migrate_of_runTask_fix (holds_oneFile "in.json" _)
    loadSchemaText_boundsText isKept_boundsSchema false
  rw [fixSchema_nestedFile, depth_nestedBinary] at hfits hdeep
  obtain ⟨e, hcause, _, hrefused⟩ := hdeep (by decide)
  have hunchanged : fixSchema boundsSchema = boundsSchema := rfl
  rw [hunchanged] at hbounds
  refine ⟨?_, ⟨e, hcause, ?_⟩, ?_⟩
  · exact (hfits (by decide)).2 _ _ (holds_oneFile _ _) .draft07 false
  · exact hrefused _ _ (holds_oneFile _ _) .draft07 false
  · exact (hbounds (by decide)).2 _ _ (holds_oneFile _ _) .draft06 true

/-! ### What cannot be passed on -/

/-- A bound of ten to the power 42, an integer of far more than 64 bits. -/
def longIntegerText : String :=
  "\x7b\"maximum\":1000000000000000000000000000000000000000000\x7d"

def boundedBy (x : Binary64) : Json :=
  .object [("maximum", .number (.float x))]

/-- What is read of the bound is a double, and what is read of its text is the next one. -/
theorem loadSchemaText_longIntegerText :
    loadSchemaText longIntegerText = .ok (boundedBy ⟨false, 1162, 1958748908200032⟩) ∧
      loadSchemaText (layOut false (boundedBy ⟨false, 1162, 1958748908200032⟩) ++ "\n") =
        .ok (boundedBy ⟨false, 1162, 1958748908200033⟩) :=
  ⟨loadSchemaText_eq_ok (by decide +kernel), loadSchemaText_eq_ok (by decide +kernel)⟩

theorem loadSchemaText_fixed_nestedFile {n : Nat} (hn : 126 ≤ n) (pretty : Bool) :
    ∃ e, loadSchemaText (layOut pretty (fixSchema (nestedFile n)) ++ "\n") =
      .error (.invalidJson e) := by
  have hnames := hasDistinctNames_fixSchema (hasDistinctNames_nestedFile n)
  have hkept : (fixSchema (nestedFile n)).KeepsNumbers :=
    fun x hx => forall_mem_allNumbers_nestedFile n x (allNumbers_fixSchema hx)
  have hblank : ∀ b ∈ "\n".octets, isSpace b = true := List.forall_mem_singleton.mpr rfl
  have hdeep : nestingLimit < (fixSchema (nestedFile n)).depth := by
    rw [fixSchema_nestedFile, depth_nestedBinary, nestingLimit]
    omega
  obtain ⟨e, hfault, _⟩ := (loadSchemaText_text
    (if pretty then Layout.pretty else Layout.compact) hnames hkept hblank).2 hdeep
  rw [layOut_eq_text]
  exact ⟨e, hfault⟩

/-- The text of a fixed schema may be refused although that of the schema was not, and where an
integer has more than 64 bits it may be read as another schema. -/
theorem loadSchemaText_layOut_ne :
    (loadSchemaText (nestedFile 126).compact = .ok (nestedFile 126) ∧
      (nestedFile 126).allNumbers = [] ∧
      ∀ pretty, ∃ e, loadSchemaText (layOut pretty (fixSchema (nestedFile 126)) ++ "\n") =
        .error (.invalidJson e)) ∧
    ∃ v w, loadSchemaText longIntegerText = .ok v ∧
      loadSchemaText (layOut false (fixSchema v) ++ "\n") = .ok w ∧ w ≠ fixSchema v := by
  constructor
  · have hload := loadSchemaText_nestedFile (n := 126) (by decide)
    exact ⟨hload, allNumbers_nestedFile 126, loadSchemaText_fixed_nestedFile (Nat.le_refl 126)⟩
  · obtain ⟨hload, hagain⟩ := loadSchemaText_longIntegerText
    exact ⟨_, _, hload, hagain, by decide⟩

end CommandLine

end RamlSchema
