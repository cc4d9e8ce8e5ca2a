import RamlSchema.MetaSchema.Evaluation
import RamlSchema.Proofs.Json.Tree

/-!
# What a check decides

A check passes, tells a violation, or runs out of steps. It decides a property if it passes where
the property holds and tells a violation where it does not, so that deciding a property says at once
that the steps were enough. Properties are put together as checks are: one fact for each way in
which a check is built from others, the last section having one for each keyword.
-/

namespace RamlSchema.MetaSchema

/-- A verdict passes if a property holds, and is a violation if it does not. -/
inductive Decides : Verdict → Prop → Prop
  | pass {p : Prop} : p → Decides (.ok ()) p
  | violation {p : Prop} (v : Violation) : ¬ p → Decides (.error (.violation v)) p

theorem Decides.congr {c : Verdict} {p q : Prop} (h : Decides c p) (hiff : p ↔ q) :
    Decides c q := by
  rwa [← propext hiff]

theorem Decides.ne_outOfSteps {c : Verdict} {p : Prop} (h : Decides c p) :
    c ≠ .error .outOfSteps := by
  cases h <;> simp

/-! ### One check after another -/

theorem decides_require (condition : Bool) (place : List Step) (v : Json) (offence : Offence) :
    Decides (require condition place v offence) (condition = true) := by
  cases condition with
  | false => exact .violation _ Bool.false_ne_true
  | true => exact .pass rfl

theorem decides_inOrder_nil {α : Type} (f : α → Verdict) : Decides (inOrder f []) True :=
  .pass trivial

/-- A later check is made only where the earlier one has passed, so what that one decides may be
used to say what the later one does. -/
theorem decides_inOrder_cons {α : Type} {f : α → Verdict} {a : α} {rest : List α} {p q : Prop}
    (ha : Decides (f a) p) (hrest : p → Decides (inOrder f rest) q) :
    Decides (inOrder f (a :: rest)) (p ∧ q) := by
  rw [inOrder]
  generalize f a = c at ha
  cases ha with
  | pass hp => exact (hrest hp).congr (by simp [hp])
  | violation v hp => exact .violation v fun h => hp h.1

theorem decides_inOrder_singleton {α : Type} {f : α → Verdict} {a : α} {p : Prop}
    (ha : Decides (f a) p) : Decides (inOrder f [a]) p :=
  (decides_inOrder_cons ha fun _ => decides_inOrder_nil f).congr (by simp)

theorem decides_inOrder {α : Type} {f : α → Verdict} {p : α → Prop} {l : List α}
    (h : ∀ a ∈ l, Decides (f a) (p a)) : Decides (inOrder f l) (∀ a ∈ l, p a) := by
  induction l with
  | nil => exact (decides_inOrder_nil f).congr (by simp)
  | cons a rest ih =>
      have hrest := ih fun b hb => h b (List.mem_cons_of_mem _ hb)
      exact (decides_inOrder_cons (h a List.mem_cons_self) fun _ => hrest).congr
        List.forall_mem_cons.symm

theorem decides_eachItem {f : List Step → Json → Verdict} {p : Json → Prop} {place : List Step}
    {vs : List Json} (h : ∀ v ∈ vs, ∀ place, Decides (f place v) (p v)) (i : Nat) :
    Decides (eachItem f place i vs) (∀ v ∈ vs, p v) := by
  induction vs generalizing i with
  | nil => exact .pass (by simp)
  | cons v rest ih =>
      have hv := h v List.mem_cons_self (.index i :: place)
      have hrest := ih (fun w hw => h w (List.mem_cons_of_mem _ hw)) (i + 1)
      rw [eachItem]
      generalize f (.index i :: place) v = c at hv
      cases hv with
      | pass hp => exact hrest.congr (by simp [hp])
      | violation w hp => exact .violation w fun hall => hp (hall v List.mem_cons_self)

theorem decides_someBranch_nil {f : Node → Verdict} {place : List Step} {v : Json}
    {offence : Offence} : Decides (someBranch f (require false place v offence) []) False :=
  (decides_require false place v offence).congr (by simp)

theorem decides_someBranch_cons {f : Node → Verdict} {otherwise : Verdict} {branch : Node}
    {rest : List Node} {p q : Prop} (hbranch : Decides (f branch) p)
    (hrest : Decides (someBranch f otherwise rest) q) :
    Decides (someBranch f otherwise (branch :: rest)) (p ∨ q) := by
  rw [someBranch]
  generalize f branch = c at hbranch
  cases hbranch with
  | pass hp => exact .pass (.inl hp)
  | violation v hp => exact hrest.congr (by simp [hp])

/-! ### Nodes and keywords -/

section Keywords

variable {m : MetaSchema} {wholeFloats : Bool} {c : Check} {n : Nat} {place : List Step} {v : Json}
  {p q : Prop}

theorem decides_reference {target : Definition}
    (h : Decides (check m n (m.define target) place v) p) :
    Decides (check m (n + 1) (.reference target) place v) p :=
  h

theorem decides_keywords {all : List Keyword}
    (h : Decides (inOrder (checkKeyword m.wholeFloats (check m n) place v) all) p) :
    Decides (check m (n + 1) (.keywords all) place v) p :=
  h

/-- Behind the keyword for the kind of a value the value is of that kind. -/
theorem decides_keywords_type {kind : Kind} {rest : List Keyword}
    (hkind : p → isOfKind m.wholeFloats kind v = true)
    (h : isOfKind m.wholeFloats kind v = true →
      Decides (inOrder (checkKeyword m.wholeFloats (check m n) place v) rest) p) :
    Decides (check m (n + 1) (.keywords (.type [kind] :: rest)) place v) p := by
  have htype : Decides (checkKeyword m.wholeFloats (check m n) place v (.type [kind]))
      (isOfKind m.wholeFloats kind v = true) :=
    (decides_require _ place v _).congr (by simp)
  exact (decides_keywords (decides_inOrder_cons htype h)).congr (and_iff_right_of_imp hkind)

theorem decides_ofKind (kind : Kind) :
    Decides (check m (n + 1) (.ofKind kind) place v) (isOfKind m.wholeFloats kind v = true) :=
  decides_keywords_type id fun hkind => (decides_inOrder_nil _).congr (by simp [hkind])

theorem decides_anything : Decides (check m (n + 1) .anything place v) True :=
  decides_keywords (decides_inOrder_nil _)

theorem decides_anyOf_two {first second : Node} (hfirst : Decides (c first place v) p)
    (hsecond : Decides (c second place v) q) :
    Decides (checkKeyword wholeFloats c place v (.anyOf [first, second])) (p ∨ q) := by
  have hnone : Decides (someBranch (fun branch => c branch place v)
      (require false place v .noBranch) []) False := decides_someBranch_nil
  refine (decides_someBranch_cons hfirst (decides_someBranch_cons hsecond hnone)).congr ?_
  rw [or_false]

theorem decides_allOf_two {first second : Node} (hfirst : Decides (c first place v) p)
    (hsecond : Decides (c second place v) q) :
    Decides (checkKeyword wholeFloats c place v (.allOf [first, second])) (p ∧ q) :=
  decides_inOrder_cons (f := fun branch => c branch place v) hfirst fun _ =>
    decides_inOrder_singleton hsecond

theorem decides_enum {allowed : List Json} :
    Decides (checkKeyword wholeFloats c place v (.enum allowed))
      (∃ w ∈ allowed, v.sameValue false w = true) :=
  (decides_require _ place _ _).congr List.any_eq_true

theorem decides_properties {named : List (String × Node)} {ms : Members}
    {p : String → Json → Prop}
    (h : ∀ entry ∈ named, ∀ w, Members.find? entry.1 ms = some w →
      Decides (c entry.2 (.name entry.1 :: place) w) (p entry.1 w)) :
    Decides (checkKeyword wholeFloats c place (.object ms) (.properties named))
      (∀ entry ∈ named, ∀ w, Members.find? entry.1 ms = some w → p entry.1 w) := by
  refine decides_inOrder (p := fun entry : String × Node =>
    ∀ w, Members.find? entry.1 ms = some w → p entry.1 w) ?_
  intro entry hentry
  obtain ⟨name, node⟩ := entry
  cases hfind : Members.find? name ms with
  | none => simpa [hfind] using Decides.pass (p := True) trivial
  | some w => simpa [hfind] using h (name, node) hentry w hfind

theorem decides_additionalProperties {node : Node} {ms : Members} {p : Json → Prop}
    (h : ∀ m ∈ ms, ∀ place, Decides (c node place m.2) (p m.2)) :
    Decides (checkKeyword wholeFloats c place (.object ms) (.additionalProperties node))
      (∀ m ∈ ms, p m.2) :=
  decides_inOrder fun m hm => h m hm _

theorem decides_propertyNames {node : Node} {ms : Members} {p : String → Prop}
    (h : ∀ name, Decides (c node place (.string name)) (p name)) :
    Decides (checkKeyword wholeFloats c place (.object ms) (.propertyNames node))
      (∀ name ∈ ms.names, p name) := by
  refine (decides_inOrder (p := fun m => p m.1) fun m _ => h m.1).congr ?_
  rw [Members.names, List.forall_mem_map]

theorem decides_items {node : Node} {vs : List Json} {p : Json → Prop}
    (h : ∀ w ∈ vs, ∀ place, Decides (c node place w) (p w)) :
    Decides (checkKeyword wholeFloats c place (.array vs) (.items node)) (∀ w ∈ vs, p w) :=
  decides_eachItem h 0

theorem decides_minItems_one {vs : List Json} :
    Decides (checkKeyword wholeFloats c place (.array vs) (.minItems 1)) (vs ≠ []) := by
  refine (decides_require _ place _ _).congr ?_
  rw [decide_eq_true_iff, Nat.succ_le_iff, List.length_pos_iff]

theorem decides_uniqueItems {vs : List Json} :
    Decides (checkKeyword wholeFloats c place (.array vs) .uniqueItems)
      (Json.allDistinct vs = true) :=
  decides_require _ place _ _

theorem decides_minimum {bound : Int} {number : Number} :
    Decides (checkKeyword wholeFloats c place (.number number) (.minimum bound))
      (bound ≤ number.toRat) :=
  (decides_require _ place _ _).congr (by simp [exceeds])

theorem decides_exclusiveMinimum {bound : Int} {number : Number} :
    Decides (checkKeyword wholeFloats c place (.number number) (.exclusiveMinimum bound))
      (bound < number.toRat) :=
  (decides_require _ place _ _).congr (by simp [exceeds])

theorem decides_format {form : TextFormat} {s : String} :
    Decides (checkKeyword wholeFloats c place (.string s) (.format form))
      (form.accepts s = true) :=
  decides_require _ place _ _

theorem decides_dependencies {named : List (String × String)} {ms : Members} :
    Decides (checkKeyword wholeFloats c place (.object ms)
        (.dependencies (named.map fun entry => (entry.1, [entry.2]))))
      (∀ entry ∈ named, entry.1 ∈ ms.names → entry.2 ∈ ms.names) := by
  refine (decides_inOrder (p := fun entry : String × List String =>
    entry.1 ∈ ms.names → ∀ other ∈ entry.2, other ∈ ms.names) ?_).congr ?_
  · intro entry _
    obtain ⟨name, needed⟩ := entry
    by_cases hmem : name ∈ ms.names
    · have hneeded : Decides (inOrder (fun other =>
          require (Members.has other ms) place (.object ms) (.missing other)) needed)
          (∀ other ∈ needed, other ∈ ms.names) :=
        decides_inOrder fun other _ => (decides_require _ place _ _).congr Members.has_iff
      simpa [Members.has_iff.mpr hmem, hmem] using hneeded
    · simpa [mt Members.has_iff.mp hmem, hmem] using Decides.pass (p := True) trivial
  · rw [List.forall_mem_map]
    simp

end Keywords

end RamlSchema.MetaSchema
