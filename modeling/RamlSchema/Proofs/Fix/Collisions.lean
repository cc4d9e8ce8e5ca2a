import RamlSchema.Proofs.Fix.Places

/-!
# Names that become the same

Marks are taken off in every object of a tree alike. Members whose names become the same are one
member afterwards: it stands where the first of them stood and has the value of the last. So the
values that are found in the result are those to which members lead that last, and each is found where
the same steps lead without marks.
-/

namespace RamlSchema

open Members

namespace VendorName

theorem fix_object_of_nodup {ms : Members} (hnodup : (names ms).Nodup) :
    rule.fix (.object ms) = .object (mapValues (fun _ => rule.fix) (unmarkAll ms)) := by
  rw [Rule.fix_object, step_mapValues, step_eq_unmarkAll hnodup]

/-- What is found under a name in the result is the fixed value of the last member that comes to have
the name. -/
theorem find?_mapValues_unmarkAll {ms : Members} {k : String} {w : Json} :
    find? k (mapValues (fun _ => rule.fix) (unmarkAll ms)) = some w ↔
      ∃ name u, Lasts ms name u ∧ unmark name = k ∧ rule.fix u = w := by
  rw [find?_mapValues, Option.map_eq_some_iff]
  constructor
  · rintro ⟨u, hu, hw⟩
    obtain ⟨name, hlasts, hname⟩ := find?_unmarkAll.mp hu
    exact ⟨name, u, hlasts, hname, hw⟩
  · rintro ⟨name, u, hlasts, hname, hw⟩
    exact ⟨u, find?_unmarkAll.mpr ⟨name, hlasts, hname⟩, hw⟩

/-- Some steps lead to a value, and each member on the way lasts. -/
inductive LastsAt : Json → List Step → Json → Prop
  | here (v : Json) : LastsAt v [] v
  | item {items : List Json} {i : Nat} {v w : Json} {steps : List Step} (hv : items[i]? = some v)
      (h : LastsAt v steps w) : LastsAt (.array items) (.index i :: steps) w
  | member {ms : Members} {k : String} {v w : Json} {steps : List Step} (hlasts : Lasts ms k v)
      (h : LastsAt v steps w) : LastsAt (.object ms) (.name k :: steps) w

theorem LastsAt.at?_fix {v u : Json} {path : List Step} (hnames : v.HasDistinctNames)
    (h : LastsAt v path u) : (rule.fix v).at? (path.map Step.unmark) = some (rule.fix u) := by
  induction h with
  | here v => rfl
  | @item items i v w steps hv h ih =>
      have hitem : (items.map rule.fix)[i]? = some (rule.fix v) := by
        rw [List.getElem?_map, hv]
        rfl
      rw [Rule.fix_array, List.map_cons, Step.unmark, Json.at?, Step.follow?, hitem]
      exact ih (Json.hasDistinctNames_array.mp hnames _ (List.mem_of_getElem? hv))
  | @member ms k v w steps hlasts h ih =>
      obtain ⟨hnodup, hvalues⟩ := Json.hasDistinctNames_object.mp hnames
      rw [fix_object_of_nodup hnodup, List.map_cons, Step.unmark, Json.at?, Step.follow?,
        find?_mapValues_unmarkAll.mpr ⟨k, v, hlasts, rfl, rfl⟩]
      exact ih (hvalues _ hlasts.mem)

theorem exists_of_follow?_fix {s : Step} {v w : Json} (hnames : v.HasDistinctNames)
    (h : s.follow? (rule.fix v) = some w) :
    ∃ s' u, s'.unmark = s ∧ rule.fix u = w ∧ u.HasDistinctNames ∧
      ∀ path x, LastsAt u path x → LastsAt v (s' :: path) x := by
  cases v with
  | array items =>
      rw [Rule.fix_array] at h
      cases s with
      | name k => cases h
      | index i =>
          rw [Step.follow?, List.getElem?_map, Option.map_eq_some_iff] at h
          obtain ⟨u, hu, hw⟩ := h
          have hdistinct := Json.hasDistinctNames_array.mp hnames u (List.mem_of_getElem? hu)
          exact ⟨.index i, u, rfl, hw, hdistinct, fun path x => .item hu⟩
  | object ms =>
      obtain ⟨hnodup, hvalues⟩ := Json.hasDistinctNames_object.mp hnames
      rw [fix_object_of_nodup hnodup] at h
      cases s with
      | index i => cases h
      | name k =>
          obtain ⟨name, u, hlasts, rfl, hw⟩ := find?_mapValues_unmarkAll.mp h
          exact ⟨.name name, u, rfl, hw, hvalues _ hlasts.mem, fun path x => .member hlasts⟩
  | _ => cases s <;> cases h

theorem at?_fix_iff {v w : Json} {steps : List Step} (hnames : v.HasDistinctNames) :
    (rule.fix v).at? steps = some w ↔
      ∃ path u, LastsAt v path u ∧ path.map Step.unmark = steps ∧ rule.fix u = w := by
  constructor
  · intro h
    induction steps generalizing v with
    | nil => exact ⟨[], v, .here v, rfl, Option.some.inj h⟩
    | cons s steps ih =>
        obtain ⟨x, hx, hw⟩ := Option.bind_eq_some_iff.mp h
        obtain ⟨s', y, rfl, rfl, hdistinct, hfollow⟩ := exists_of_follow?_fix hnames hx
        obtain ⟨path, u, hlasts, rfl, hu⟩ := ih hdistinct hw
        exact ⟨s' :: path, u, hfollow path u hlasts, rfl, hu⟩
  · rintro ⟨path, u, hlasts, rfl, rfl⟩
    exact hlasts.at?_fix hnames

/-- **What becomes of the objects in a tree when marks are taken off.** Each has its names without
marks, each where it came first and none twice, and under each name the fixed value of the last member
that comes to have it. The fixed values of the members that last are what is found in the result, where
their names lead without marks. -/
theorem exists_fix_object_of_at? {v : Json} (hnames : v.HasDistinctNames) :
    (∀ (steps : List Step) (ms : Members), v.at? steps = some (.object ms) →
      ∃ ms' : Members, rule.fix (.object ms) = .object ms' ∧
        names ms' = ((names ms).map unmark).eraseDups ∧ (names ms').Nodup ∧
        ∀ k w, find? k ms' = some w ↔
          ∃ name u, Lasts ms name u ∧ unmark name = k ∧ rule.fix u = w) ∧
      ∀ (steps : List Step) (w : Json), (rule.fix v).at? steps = some w ↔
        ∃ path u, LastsAt v path u ∧ path.map Step.unmark = steps ∧ rule.fix u = w := by
  refine ⟨fun steps ms hplace => ?_, fun steps w => at?_fix_iff hnames⟩
  refine ⟨_, fix_object_of_nodup (nodup_names_of_at? hnames hplace), ?_, ?_, fun k w => ?_⟩
  · rw [names_mapValues, names_unmarkAll]
  · exact nodup_names_mapValues (nodup_names_ofPairs _)
  · exact find?_mapValues_unmarkAll

/-- An age under three names, of which two become one, and a size under two, the last of them with
something in it that is given twice as well. -/
def repeatedMembers : Members :=
  [("x-amf-age", .number (.integer 1)),
    ("size", .object [("x-amf-a", .null), ("a", .boolean true)]),
    ("age", .number (.integer 2)),
    ("x-amf-x-amf-age", .number (.integer 3)),
    ("x-amf-size", .array [.object [("a", .null), ("b", .null), ("x-amf-a", .boolean false)]])]

def repeatedSchema : Json :=
  .object [("type", .string "object"), ("x-amf-properties", .object repeatedMembers)]

theorem exists_fix_object_of_at?_repeatedSchema :
    repeatedSchema.HasDistinctNames ∧
      (∃ ms' : Members, rule.fix (.object repeatedMembers) = .object ms' ∧
        names ms' = ["age", "size", "x-amf-age"] ∧
        find? "age" ms' = some (.number (.integer 2)) ∧
        find? "x-amf-age" ms' = some (.number (.integer 3)) ∧
        find? "size" ms' = some (.array [.object [("a", .boolean false), ("b", .null)]])) ∧
      (rule.fix repeatedSchema).at? [.name "properties", .name "size", .index 0, .name "a"] =
        some (.boolean false) := by
  have hnames : repeatedSchema.HasDistinctNames := by
    simp [repeatedSchema, repeatedMembers, Json.HasDistinctNames, Json.ItemsHaveDistinctNames,
      Json.MembersHaveDistinctNames]
  have hage : Lasts repeatedMembers "age" (.number (.integer 2)) :=
    lasts_iff_getLast?.mpr (by decide)
  have hmarked : Lasts repeatedMembers "x-amf-x-amf-age" (.number (.integer 3)) :=
    lasts_iff_getLast?.mpr (by decide)
  have hsize : Lasts repeatedMembers "x-amf-size"
      (.array [.object [("a", .null), ("b", .null), ("x-amf-a", .boolean false)]]) :=
    lasts_iff_getLast?.mpr (by decide)
  have hplace : LastsAt repeatedSchema
      [.name "x-amf-properties", .name "x-amf-size", .index 0, .name "x-amf-a"]
      (.boolean false) := by
    refine .member (lasts_iff_getLast?.mpr (by decide)) (.member hsize (.item rfl ?_))
    exact .member (lasts_iff_getLast?.mpr (by decide)) (.here _)
  obtain ⟨hobjects, hplaces⟩ := exists_fix_object_of_at? hnames
  obtain ⟨ms', hfix, hnames', -, hvalues⟩ := hobjects [.name "x-amf-properties"] _ rfl
  refine ⟨hnames, ⟨ms', hfix, hnames'.trans (by decide), ?_, ?_, ?_⟩, ?_⟩
  · exact (hvalues _ _).mpr ⟨_, _, hage, by decide, rfl⟩
  · exact (hvalues _ _).mpr ⟨_, _, hmarked, by decide, rfl⟩
  · exact (hvalues _ _).mpr ⟨_, _, hsize, by decide, rfl⟩
  · exact (hplaces _ _).mpr ⟨_, _, hplace, by decide, rfl⟩

end VendorName

end RamlSchema
