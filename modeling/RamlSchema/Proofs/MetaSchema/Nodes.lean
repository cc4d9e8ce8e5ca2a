import RamlSchema.MetaSchema.Definitions
import RamlSchema.Proofs.MetaSchema.Decision
import RamlSchema.Proofs.Schema.Shape

/-!
# What the nodes decide

The nodes that the meta-schemas are made of, each with the shape of values that a check of it
decides. Nodes without schemas in them need a few steps and nothing else. Nodes with schemas in them
need that the meta-schema decides what a schema is for all values of a smaller depth, and four steps
for each level of the value that is checked.
-/

namespace RamlSchema.MetaSchema

open Schema

section Kinds

variable {wholeFloats : Bool} {v : Json}

theorem isOfKind_string : isOfKind wholeFloats .string v = true ↔ IsText v := by
  cases v <;> simp [isOfKind, IsText]

theorem isOfKind_boolean : isOfKind wholeFloats .boolean v = true ↔ IsFlag v := by
  cases v <;> simp [isOfKind, IsFlag]

theorem isOfKind_number : isOfKind wholeFloats .number v = true ↔ IsNumber v := by
  cases v <;> simp [isOfKind, IsNumber]

theorem isOfKind_array : isOfKind wholeFloats .array v = true ↔ IsArray v := by
  cases v <;> simp [isOfKind, IsArray]

theorem isOfKind_object :
    isOfKind wholeFloats .object v = true ↔ ∃ ms : Members, v = .object ms := by
  cases v <;> simp [isOfKind]

theorem isInteger_iff {d : Draft} (hfloats : wholeFloats = true ↔ d ≠ .draft04) (n : Number) :
    isOfKind wholeFloats .integer (.number n) = true ↔ IsInteger n d := by
  have hliteral : n.isIntegerLiteral = true ↔ ∃ i, n = .integer i := by
    cases n <;> simp [Number.isIntegerLiteral]
  have hwhole : n.isWhole = true ↔ ∃ i : Int, n.toRat = i := by
    rw [Number.isWhole, decide_eq_true_iff]
    refine ⟨fun hden => ⟨n.toRat.num, ?_⟩, ?_⟩
    · exact Rat.ext rfl hden
    · intro h
      obtain ⟨i, hi⟩ := h
      rw [hi, Rat.den_intCast]
  have himp : (∃ i, n = .integer i) → ∃ i : Int, n.toRat = i := by
    intro h
    obtain ⟨i, rfl⟩ := h
    exact ⟨i, rfl⟩
  rw [isOfKind, Bool.or_eq_true, Bool.and_eq_true, hliteral, hwhole, hfloats]
  cases d with
  | draft04 => simp [IsInteger]
  | draft06 => simpa [IsInteger] using himp
  | draft07 => simpa [IsInteger] using himp

/-- A check for integers may count floats without a fraction and passes other kinds of values not. -/
theorem isOfKind_integer {d : Draft} (hfloats : wholeFloats = true ↔ d ≠ .draft04) :
    isOfKind wholeFloats .integer v = true ↔ ∃ n, v = .number n ∧ IsInteger n d := by
  cases v with
  | number n => simp [isInteger_iff hfloats]
  | _ => simp [isOfKind]

end Kinds

/-! ### Lists of names -/

theorem forall_isText_iff {vs : List Json} :
    (∀ w ∈ vs, IsText w) ↔ ∃ names : List String, vs = names.map .string := by
  induction vs with
  | nil => exact ⟨fun _ => ⟨[], rfl⟩, fun _ => List.forall_mem_nil _⟩
  | cons v rest ih =>
      rw [List.forall_mem_cons, ih]
      constructor
      · intro h
        obtain ⟨⟨s, rfl⟩, names, rfl⟩ := h
        exact ⟨s :: names, rfl⟩
      · intro h
        obtain ⟨names, hnames⟩ := h
        obtain ⟨s, names', rfl, hs, hnames'⟩ := List.map_eq_cons_iff.mp hnames.symm
        exact ⟨⟨s, hs.symm⟩, names', hnames'.symm⟩

theorem sameValue_string {signed : Bool} {v : Json} {s : String} :
    v.sameValue signed (.string s) = true ↔ v = .string s := by
  cases v with
  | string t => rw [Json.sameValue, beq_iff_eq, Json.string.injEq]
  | _ => simp [Json.sameValue]

theorem noneRepeated_strings (signed : Bool) (names : List String) :
    Json.noneRepeated signed (names.map .string) = true ↔ names.Nodup := by
  induction names with
  | nil => simp [Json.noneRepeated]
  | cons s rest ih =>
      have hany : (rest.map Json.string).any (Json.sameValue signed (.string s)) = true ↔
          s ∈ rest := by
        simp only [List.any_eq_true, List.mem_map]
        constructor
        · intro h
          obtain ⟨_, ⟨t, ht, rfl⟩, hsame⟩ := h
          exact Json.string.inj (sameValue_string.mp hsame) ▸ ht
        · intro hs
          exact ⟨.string s, ⟨s, hs, rfl⟩, sameValue_string.mpr rfl⟩
      rw [List.map_cons, Json.noneRepeated, Bool.and_eq_true, ih, Bool.not_eq_true',
        ← Bool.not_eq_true, hany, List.nodup_cons]

theorem allDistinct_strings (names : List String) :
    Json.allDistinct (names.map .string) = true ↔ names.Nodup :=
  noneRepeated_strings _ names

/-! ### Nodes without schemas in them -/

section Data

variable {m : MetaSchema} {d : Draft} {n : Nat} {place : List Step} {v : Json}

theorem decides_text : Decides (check m (n + 1) (.ofKind .string) place v) (IsText v) :=
  (decides_ofKind .string).congr isOfKind_string

theorem decides_flag : Decides (check m (n + 1) (.ofKind .boolean) place v) (IsFlag v) :=
  (decides_ofKind .boolean).congr isOfKind_boolean

theorem decides_number : Decides (check m (n + 1) (.ofKind .number) place v) (IsNumber v) :=
  (decides_ofKind .number).congr isOfKind_number

theorem decides_array : Decides (check m (n + 1) (.ofKind .array) place v) (IsArray v) :=
  (decides_ofKind .array).congr isOfKind_array

theorem decides_examples :
    Decides (check m (n + 2) (.keywords [.type [.array], .items .anything]) place v)
      (IsArray v) := by
  refine decides_keywords_type isOfKind_array.mpr fun harray => ?_
  obtain ⟨items, rfl⟩ := isOfKind_array.mp harray
  refine (decides_inOrder_singleton (decides_items fun w _ _ => decides_anything)).congr ?_
  simp [IsArray]

theorem decides_divisor : Decides (check m (n + 1) .divisor place v) (IsPositive v) := by
  refine decides_keywords_type ?_ fun hnumber => ?_
  · intro h
    obtain ⟨number, hv, _⟩ := h
    exact isOfKind_number.mpr ⟨number, hv⟩
  · obtain ⟨number, rfl⟩ := isOfKind_number.mp hnumber
    exact (decides_inOrder_singleton decides_exclusiveMinimum).congr (by simp [IsPositive])

theorem decides_textOf (form : TextFormat) :
    Decides (check m (n + 1) (.textOf form) place v)
      (∃ s, v = .string s ∧ form.accepts s = true) := by
  refine decides_keywords_type ?_ fun htext => ?_
  · intro h
    obtain ⟨s, hv, _⟩ := h
    exact isOfKind_string.mpr ⟨s, hv⟩
  · obtain ⟨s, rfl⟩ := isOfKind_string.mp htext
    exact (decides_inOrder_singleton decides_format).congr (by simp)

theorem decides_count_node (hfloats : m.wholeFloats = true ↔ d ≠ .draft04) :
    Decides (check m (n + 1) .count place v) (IsCount d v) := by
  refine decides_keywords_type ?_ fun hinteger => ?_
  · intro h
    obtain ⟨number, hv, hnumber, _⟩ := h
    exact (isOfKind_integer hfloats).mpr ⟨number, hv, hnumber⟩
  · obtain ⟨number, rfl, hnumber⟩ := (isOfKind_integer hfloats).mp hinteger
    exact (decides_inOrder_singleton decides_minimum).congr (by simp [IsCount, hnumber])

theorem simpleType_eq :
    Node.simpleType = .keywords [.enum (kindNames.map .string)] := rfl

theorem decides_simpleType_node :
    Decides (check m (n + 1) .simpleType place v) (∃ name ∈ kindNames, v = .string name) := by
  rw [simpleType_eq]
  refine (decides_keywords (decides_inOrder_singleton decides_enum)).congr ?_
  constructor
  · intro h
    obtain ⟨w, hw, hsame⟩ := h
    obtain ⟨name, hname, rfl⟩ := List.mem_map.mp hw
    exact ⟨name, hname, sameValue_string.mp hsame⟩
  · intro h
    obtain ⟨name, hname, rfl⟩ := h
    exact ⟨_, List.mem_map_of_mem hname, sameValue_string.mpr rfl⟩

end Data

/-! ### References -/

/-- What the meta-schemas have in common, for the draft that one of them belongs to. -/
structure Reads (m : MetaSchema) (d : Draft) : Prop where
  wholeFloats : m.wholeFloats = true ↔ d ≠ .draft04
  schemaList : m.define .schemaList = .schemaList
  count : m.define .count = .count
  countOrZero : m.define .countOrZero = .countOrZero
  simpleType : m.define .simpleType = .simpleType
  nameList : ∀ n place v,
    Decides (check m (n + 2) (m.define .nameList) place v) (IsNameList d v)

section References

variable {m : MetaSchema} {d : Draft} {n : Nat} {place : List Step} {v : Json} (hm : Reads m d)
include hm

theorem decides_count : Decides (check m (n + 2) (.reference .count) place v) (IsCount d v) := by
  refine decides_reference ?_
  rw [hm.count]
  exact decides_count_node hm.wholeFloats

theorem decides_countOrZero :
    Decides (check m (n + 4) (.reference .countOrZero) place v) (IsCount d v) := by
  refine decides_reference ?_
  rw [hm.countOrZero]
  refine (decides_keywords (decides_inOrder_singleton
    (decides_allOf_two (decides_count hm) decides_anything))).congr ?_
  rw [and_true]

theorem decides_simpleType :
    Decides (check m (n + 2) (.reference .simpleType) place v)
      (∃ name ∈ kindNames, v = .string name) := by
  refine decides_reference ?_
  rw [hm.simpleType]
  exact decides_simpleType_node

theorem decides_nameList :
    Decides (check m (n + 3) (.reference .nameList) place v) (IsNameList d v) :=
  decides_reference (hm.nameList n place v)

theorem decides_kindList :
    Decides (check m (n + 3) (.keywords [.type [.array], .items (.reference .simpleType),
        .minItems 1, .uniqueItems]) place v)
      (∃ names : List String, v = .array (names.map .string) ∧
        (∀ name ∈ names, name ∈ kindNames) ∧ names.Nodup ∧ names ≠ []) := by
  refine decides_keywords_type ?_ fun harray => ?_
  · intro h
    obtain ⟨names, hv, _⟩ := h
    exact isOfKind_array.mpr ⟨_, hv⟩
  obtain ⟨items, rfl⟩ := isOfKind_array.mp harray
  refine (decides_inOrder_cons (decides_items fun w _ _ => decides_simpleType hm) fun _ =>
    decides_inOrder_cons decides_minItems_one fun _ =>
      decides_inOrder_singleton decides_uniqueItems).congr ?_
  constructor
  · intro h
    obtain ⟨hnames, hne, hdistinct⟩ := h
    obtain ⟨names, rfl⟩ := forall_isText_iff.mp fun w hw => by
      obtain ⟨name, _, hname⟩ := hnames w hw
      exact ⟨name, hname⟩
    refine ⟨names, rfl, fun name hname => ?_, (allDistinct_strings names).mp hdistinct, ?_⟩
    · obtain ⟨other, hother, heq⟩ := hnames (.string name) (List.mem_map_of_mem hname)
      exact Json.string.inj heq ▸ hother
    · intro hempty
      subst hempty
      exact hne rfl
  · intro h
    obtain ⟨names, hitems, hnames, hnodup, hne⟩ := h
    obtain rfl := Json.array.inj hitems
    refine ⟨fun w hw => ?_, by simpa using hne, (allDistinct_strings names).mpr hnodup⟩
    obtain ⟨name, hname, rfl⟩ := List.mem_map.mp hw
    exact ⟨name, hnames name hname, rfl⟩

theorem decides_types : Decides (check m (n + 4) .types place v) (IsKinds v) :=
  decides_keywords (decides_inOrder_singleton
    (decides_anyOf_two (decides_simpleType hm) (decides_kindList hm)))

end References

end RamlSchema.MetaSchema
