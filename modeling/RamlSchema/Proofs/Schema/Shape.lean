import RamlSchema.Draft
import RamlSchema.Format.Pattern
import RamlSchema.Format.Uri
import RamlSchema.Json.Equality
import RamlSchema.Proofs.Json.Tree

/-!
# What a schema looks like

Which values are schemas of a draft, said of the values themselves: an object is one if the value
under each keyword has the shape that the draft asks for, and where that shape has schemas in it,
they are schemas again. There are no references to follow here and no alternatives to try; whether a
value is a schema is a recursion on the value.
-/

namespace RamlSchema.Schema

def IsText (v : Json) : Prop :=
  ∃ s, v = .string s

def IsFlag (v : Json) : Prop :=
  ∃ b, v = .boolean b

def IsNumber (v : Json) : Prop :=
  ∃ n, v = .number n

def IsPositive (v : Json) : Prop :=
  ∃ n, v = .number n ∧ 0 < n.toRat

def IsArray (v : Json) : Prop :=
  ∃ items, v = .array items

def IsPattern (v : Json) : Prop :=
  ∃ s, v = .string s ∧ Pattern.isPattern s = true

def IsUri (v : Json) : Prop :=
  ∃ s, v = .string s ∧ Uri.isUri s = true

def IsReference (v : Json) : Prop :=
  ∃ s, v = .string s ∧ Uri.isReference s = true

/-- Draft 04 goes by how a number is written, the later drafts go by its value. -/
def IsInteger (n : Number) : Draft → Prop
  | .draft04 => ∃ i, n = .integer i
  | .draft06 | .draft07 => ∃ i : Int, n.toRat = i

def IsCount (d : Draft) (v : Json) : Prop :=
  ∃ n, v = .number n ∧ IsInteger n d ∧ 0 ≤ n.toRat

/-- Names of which none is there twice; in draft 04 at least one. -/
def IsNameList (d : Draft) (v : Json) : Prop :=
  ∃ names : List String,
    v = .array (names.map .string) ∧ names.Nodup ∧ (d = .draft04 → names ≠ [])

theorem isNameList_array {d : Draft} {items : List Json} :
    IsNameList d (.array items) ↔ ∃ names : List String,
      items = names.map .string ∧ names.Nodup ∧ (d = .draft04 → names ≠ []) := by
  simp [IsNameList]

/-- The allowed values: in draft 04 at least one, and none that is the same as another. -/
def IsChoice (d : Draft) (v : Json) : Prop :=
  ∃ items, v = .array items ∧
    (d = .draft04 → items ≠ [] ∧ Json.allDistinct items = true)

/-! Of counts and lists the later drafts ask no more than any other. -/

section Later

variable {d e : Draft} (he : e ≠ .draft04) {v : Json}

include he

theorem isCount_of_ne_draft04 (h : IsCount d v) : IsCount e v := by
  obtain ⟨n, rfl, hinteger, hpositive⟩ := h
  have hvalue : ∃ i : Int, n.toRat = i := by
    cases d with
    | draft04 =>
        obtain ⟨i, rfl⟩ := hinteger
        exact ⟨i, rfl⟩
    | _ => exact hinteger
  refine ⟨n, rfl, ?_, hpositive⟩
  cases e with
  | draft04 => exact absurd rfl he
  | _ => exact hvalue

theorem isNameList_of_ne_draft04 (h : IsNameList d v) : IsNameList e v := by
  obtain ⟨names, rfl, hnodup, _⟩ := h
  exact ⟨names, rfl, hnodup, fun h => absurd h he⟩

theorem isChoice_of_ne_draft04 (h : IsChoice d v) : IsChoice e v := by
  obtain ⟨items, rfl, _⟩ := h
  exact ⟨items, rfl, fun h => absurd h he⟩

end Later

def kindNames : List String :=
  ["array", "boolean", "integer", "null", "number", "object", "string"]

/-- The name of a kind of values, or several and none of them twice. -/
def IsKinds (v : Json) : Prop :=
  (∃ name ∈ kindNames, v = .string name) ∨
    ∃ names : List String, v = .array (names.map .string) ∧
      (∀ name ∈ names, name ∈ kindNames) ∧ names.Nodup ∧ names ≠ []

/-! ### Keywords -/

/-- What a draft asks of the value under a keyword. -/
inductive Shape
  | data (holds : Json → Prop)
  | schema
  | flagOrSchema
  | schemaOrList
  | schemaList
  | named (allowed : String → Prop)
  | dependencies

/-- What is asked under the keywords that only some drafts have, or have for something else. -/
def ownShape (keyword : String) : Draft → Shape
  | .draft04 =>
    match keyword with
    | "id" | "$schema" => .data IsText
    | "exclusiveMaximum" | "exclusiveMinimum" => .data IsFlag
    | _ => .data fun _ => True
  | .draft06 =>
    match keyword with
    | "$id" | "$ref" => .data IsReference
    | "$schema" => .data IsUri
    | "examples" => .data IsArray
    | "exclusiveMaximum" | "exclusiveMinimum" => .data IsNumber
    | "contains" | "propertyNames" => .schema
    | _ => .data fun _ => True
  | .draft07 =>
    match keyword with
    | "$id" | "$ref" => .data IsReference
    | "$schema" => .data IsUri
    | "$comment" | "contentMediaType" | "contentEncoding" => .data IsText
    | "readOnly" | "writeOnly" => .data IsFlag
    | "examples" => .data IsArray
    | "exclusiveMaximum" | "exclusiveMinimum" => .data IsNumber
    | "contains" | "propertyNames" | "if" | "then" | "else" => .schema
    | _ => .data fun _ => True

theorem ownShape_draft04_cases (keyword : String) :
    ownShape keyword .draft04 = .data IsText ∨ ownShape keyword .draft04 = .data IsFlag ∨
      ownShape keyword .draft04 = .data fun _ => True := by
  simp only [ownShape]
  split <;> simp

/-- What a draft asks under a keyword. What stands under any other name is data of any kind. -/
def shapeOf (d : Draft) (keyword : String) : Shape :=
  match keyword with
  | "title" | "description" | "format" => .data IsText
  | "multipleOf" => .data IsPositive
  | "maximum" | "minimum" => .data IsNumber
  | "maxLength" | "minLength" | "maxItems" | "minItems" | "maxProperties" | "minProperties" =>
    .data (IsCount d)
  | "pattern" => .data IsPattern
  | "uniqueItems" => .data IsFlag
  | "required" => .data (IsNameList d)
  | "enum" => .data (IsChoice d)
  | "type" => .data IsKinds
  | "additionalItems" | "additionalProperties" => .flagOrSchema
  | "items" => .schemaOrList
  | "allOf" | "anyOf" | "oneOf" => .schemaList
  | "not" => .schema
  | "definitions" | "properties" => .named fun _ => True
  | "patternProperties" => .named fun name => d = .draft07 → Pattern.isPattern name = true
  | "dependencies" => .dependencies
  | keyword => ownShape keyword d

theorem shapeOf_exclusive {d : Draft} (hd : d ≠ .draft04) :
    shapeOf d "exclusiveMaximum" = .data IsNumber ∧
      shapeOf d "exclusiveMinimum" = .data IsNumber := by
  cases d with
  | draft04 => exact absurd rfl hd
  | draft06 => exact ⟨rfl, rfl⟩
  | draft07 => exact ⟨rfl, rfl⟩

theorem shapeOf_contains {d : Draft} (hd : d ≠ .draft04) : shapeOf d "contains" = .schema := by
  cases d with
  | draft04 => exact absurd rfl hd
  | draft06 => rfl
  | draft07 => rfl

theorem shapeOf_propertyNames {d : Draft} (hd : d ≠ .draft04) :
    shapeOf d "propertyNames" = .schema := by
  cases d with
  | draft04 => exact absurd rfl hd
  | draft06 => rfl
  | draft07 => rfl

theorem shapeOf_const (d : Draft) : shapeOf d "const" = .data fun _ => True := by
  cases d <;> rfl

/-- In draft 04 a flag that makes a bound exclusive stands beside its bound. -/
def FlagsHaveBounds (ms : Members) : Prop :=
  ("exclusiveMaximum" ∈ ms.names → "maximum" ∈ ms.names) ∧
    ("exclusiveMinimum" ∈ ms.names → "minimum" ∈ ms.names)

/-! ### Schemas -/

mutual

/-- Whether a value is a schema of a draft. -/
def IsSchema (d : Draft) : Json → Prop
  | .object ms => (d = .draft04 → FlagsHaveBounds ms) ∧ MembersFit d ms
  | .boolean _ => d ≠ .draft04
  | .null => False
  | .number _ => False
  | .string _ => False
  | .array _ => False
termination_by structural v => v

/-- The value under each keyword has the shape that the draft asks for. -/
def MembersFit (d : Draft) : List (String × Json) → Prop
  | [] => True
  | (k, v) :: rest =>
    (match shapeOf d k, v with
      | .data holds, v => holds v
      | .schema, v => IsSchema d v
      | .flagOrSchema, .boolean _ => True
      | .flagOrSchema, v => IsSchema d v
      | .schemaOrList, .array items => items ≠ [] ∧ ItemsAreSchemas d items
      | .schemaOrList, v => IsSchema d v
      | .schemaList, .array items => items ≠ [] ∧ ItemsAreSchemas d items
      | .named allowed, .object named =>
        (∀ name ∈ Members.names named, allowed name) ∧ NamedAreSchemas d named
      | .dependencies, .object named => DependenciesFit d named
      | _, _ => False) ∧ MembersFit d rest
termination_by structural ms => ms

def ItemsAreSchemas (d : Draft) : List Json → Prop
  | [] => True
  | v :: rest => IsSchema d v ∧ ItemsAreSchemas d rest
termination_by structural vs => vs

def NamedAreSchemas (d : Draft) : List (String × Json) → Prop
  | [] => True
  | (_, v) :: rest => IsSchema d v ∧ NamedAreSchemas d rest
termination_by structural ms => ms

def DependenciesFit (d : Draft) : List (String × Json) → Prop
  | [] => True
  | (_, v) :: rest => (IsSchema d v ∨ IsNameList d v) ∧ DependenciesFit d rest
termination_by structural ms => ms

end

/-! ### The same, of all members at once -/

/-- Whether a value has a shape. -/
def Fits (d : Draft) : Shape → Json → Prop
  | .data holds, v => holds v
  | .schema, v => IsSchema d v
  | .flagOrSchema, v => IsFlag v ∨ IsSchema d v
  | .schemaOrList, v => IsSchema d v ∨ ∃ items, v = .array items ∧ items ≠ [] ∧
      ∀ w ∈ items, IsSchema d w
  | .schemaList, v => ∃ items, v = .array items ∧ items ≠ [] ∧ ∀ w ∈ items, IsSchema d w
  | .named allowed, v => ∃ named : Members, v = .object named ∧
      (∀ name ∈ named.names, allowed name) ∧ ∀ m ∈ named, IsSchema d m.2
  | .dependencies, v => ∃ named : Members, v = .object named ∧
      ∀ m ∈ named, IsSchema d m.2 ∨ IsNameList d m.2

theorem itemsAreSchemas_iff {d : Draft} {items : List Json} :
    ItemsAreSchemas d items ↔ ∀ v ∈ items, IsSchema d v := by
  induction items with
  | nil => simp [ItemsAreSchemas]
  | cons v rest ih => simp [ItemsAreSchemas, ih]

theorem namedAreSchemas_iff {d : Draft} {named : Members} :
    NamedAreSchemas d named ↔ ∀ m ∈ named, IsSchema d m.2 := by
  induction named with
  | nil => simp [NamedAreSchemas]
  | cons m rest ih => simp [NamedAreSchemas, ih]

theorem dependenciesFit_iff {d : Draft} {named : Members} :
    DependenciesFit d named ↔ ∀ m ∈ named, IsSchema d m.2 ∨ IsNameList d m.2 := by
  induction named with
  | nil => simp [DependenciesFit]
  | cons m rest ih => simp [DependenciesFit, ih]

theorem membersFit_iff {d : Draft} {ms : Members} :
    MembersFit d ms ↔ ∀ m ∈ ms, Fits d (shapeOf d m.1) m.2 := by
  induction ms with
  | nil => simp [MembersFit]
  | cons m rest ih =>
      obtain ⟨k, v⟩ := m
      unfold MembersFit
      rw [ih, List.forall_mem_cons]
      refine and_congr ?_ Iff.rfl
      cases shapeOf d k <;> cases v <;>
        simp [Fits, IsFlag, IsSchema, itemsAreSchemas_iff, namedAreSchemas_iff,
          dependenciesFit_iff]

/-- An object is a schema if every member fits what is asked under its name. -/
theorem isSchema_object {d : Draft} {ms : Members} :
    IsSchema d (.object ms) ↔
      (d = .draft04 → FlagsHaveBounds ms) ∧ ∀ m ∈ ms, Fits d (shapeOf d m.1) m.2 := by
  rw [IsSchema, membersFit_iff]

theorem isSchema_boolean {d : Draft} {b : Bool} : IsSchema d (.boolean b) ↔ d ≠ .draft04 :=
  Iff.rfl

theorem not_isSchema_array {d : Draft} (items : List Json) : ¬IsSchema d (.array items) :=
  fun h => h

theorem fits_schemaList_array {d : Draft} {items : List Json} :
    Fits d .schemaList (.array items) ↔ items ≠ [] ∧ ∀ w ∈ items, IsSchema d w := by
  simp [Fits]

theorem fits_named_object {d : Draft} {allowed : String → Prop} {named : Members} :
    Fits d (.named allowed) (.object named) ↔
      (∀ name ∈ named.names, allowed name) ∧ ∀ m ∈ named, IsSchema d m.2 := by
  simp [Fits]

theorem fits_dependencies_object {d : Draft} {named : Members} :
    Fits d .dependencies (.object named) ↔ ∀ m ∈ named, IsSchema d m.2 ∨ IsNameList d m.2 := by
  simp [Fits]

theorem isSchema_cases {d : Draft} {v : Json} (h : IsSchema d v) :
    (∃ ms : Members, v = .object ms) ∨ d ≠ .draft04 ∧ IsFlag v := by
  cases v with
  | object ms => exact .inl ⟨ms, rfl⟩
  | boolean b => exact .inr ⟨h, b, rfl⟩
  | _ => exact h.elim

theorem isSchema_draft04 {v : Json} (h : IsSchema .draft04 v) : ∃ ms : Members, v = .object ms := by
  rcases isSchema_cases h with hobject | ⟨hd, _⟩
  · exact hobject
  · exact absurd rfl hd

end RamlSchema.Schema
