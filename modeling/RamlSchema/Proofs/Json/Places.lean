import RamlSchema.Json.Pointer
import RamlSchema.Proofs.Json.Tree

/-!
# What stands at a place

Steps that follow other steps go on from the value that these lead to. Every value in a tree has
distinct names if the tree has.
-/

namespace RamlSchema

open Members

theorem Json.at?_append (p q : List Step) (v : Json) :
    v.at? (p ++ q) = (v.at? p).bind (Json.at? q) := by
  induction p generalizing v with
  | nil => rfl
  | cons s p ih =>
      rw [List.cons_append, Json.at?, Json.at?, Option.bind_assoc]
      exact congrArg (Option.bind _) (funext ih)

theorem Step.hasDistinctNames_of_follow? {s : Step} {v w : Json} (hnames : v.HasDistinctNames)
    (h : s.follow? v = some w) : w.HasDistinctNames := by
  cases s with
  | name k =>
      cases v with
      | object ms => exact (Json.hasDistinctNames_object.mp hnames).2 _ (mem_of_find? h)
      | _ => cases h
  | index i =>
      cases v with
      | array items => exact Json.hasDistinctNames_array.mp hnames w (List.mem_of_getElem? h)
      | _ => cases h

theorem Json.hasDistinctNames_of_at? {steps : List Step} {v w : Json} (hnames : v.HasDistinctNames)
    (h : v.at? steps = some w) : w.HasDistinctNames := by
  induction steps generalizing v with
  | nil => exact Option.some.inj h ▸ hnames
  | cons s steps ih =>
      obtain ⟨x, hx, hw⟩ := Option.bind_eq_some_iff.mp h
      exact ih (Step.hasDistinctNames_of_follow? hnames hx) hw

theorem nodup_names_of_at? {steps : List Step} {v : Json} {ms : Members}
    (hnames : v.HasDistinctNames) (h : v.at? steps = some (.object ms)) : (names ms).Nodup :=
  (Json.hasDistinctNames_object.mp (Json.hasDistinctNames_of_at? hnames h)).1

end RamlSchema
