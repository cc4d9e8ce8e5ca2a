import RamlSchema.Proofs.Migration.Positions

/-!
# What migration does to the keywords of one schema

Four rewrites follow each other, and no two of them touch the same names. For each kind of rewrite
there is one statement of all that it can do, in terms of what names are looked up to before and
after; it is shown of the rewrite by itself and then of the four together, and no later proof looks
into a rewrite again.
-/

namespace RamlSchema.Migration

open Members

/-- Either nothing changes, or a string under `id` is found under `$id`. -/
inductive IdLookups (before after : Members) : Prop
  | kept (hid : find? "id" after = find? "id" before)
      (hnew : find? "$id" after = find? "$id" before)
      (hwhy : ∀ s, find? "id" before = some (.string s) → find? "$id" before ≠ none)
  | renamed (s : String) (hold : find? "id" before = some (.string s))
      (hfree : find? "$id" before = none) (hid : find? "id" after = none)
      (hnew : find? "$id" after = some (.string s))

/-- Either nothing changes, or a single allowed value beside a type is found as a constant. -/
inductive EnumLookups (before after : Members) : Prop
  | kept (henum : find? "enum" after = find? "enum" before)
      (hconst : find? "const" after = find? "const" before)
      (hwhy : ∀ v, find? "type" before ≠ none → find? "enum" before = some (.array [v]) →
        find? "const" before ≠ none)
  | collapsed (v : Json) (htype : find? "type" before ≠ none)
      (hold : find? "enum" before = some (.array [v])) (hfree : find? "const" before = none)
      (henum : find? "enum" after = none) (hconst : find? "const" after = some v)

/-- What is no flag stays, a flag that is set takes the number of its bound, and any other flag goes.
-/
inductive BoundLookups (flag bound : String) (before after : Members) : Prop
  | kept (hflag : find? flag after = find? flag before)
      (hbound : find? bound after = find? bound before)
      (hwhy : ∀ b, find? flag before ≠ some (.boolean b))
  | lifted (n : Number) (hold : find? flag before = some (.boolean true))
      (hnumber : find? bound before = some (.number n))
      (hflag : find? flag after = some (.number n)) (hbound : find? bound after = none)
  | dropped (b : Bool) (hold : find? flag before = some (.boolean b))
      (hwhy : b = true → ∀ n, find? bound before ≠ some (.number n))
      (hflag : find? flag after = none) (hbound : find? bound after = find? bound before)

/-! ### Each rewrite -/

variable {ms : Members}

theorem renameId_lookups (hnodup : (names ms).Nodup) : IdLookups ms (renameId ms) := by
  unfold renameId
  split
  · next s hid =>
      split
      · next hhas =>
          refine .kept rfl rfl fun _ _ hnone => ?_
          exact find?_eq_none_iff.mp hnone (has_iff.mp hhas)
      · next hhas =>
          have hnew : "$id" ∉ names ms := fun h => hhas (has_iff.mpr h)
          exact .renamed s hid (find?_eq_none_iff.mpr hnew)
            (find?_replace_old hnodup (by decide) _)
            (find?_replace_new (mem_names_of_mem (mem_of_find? hid)) hnew _)
  · next hid => exact .kept rfl rfl fun s hs => absurd hs (hid s)

theorem find?_renameId {k : String} (hid : k ≠ "id") (hnew : k ≠ "$id") :
    find? k (renameId ms) = find? k ms := by
  unfold renameId
  split
  · split
    · rfl
    · exact find?_replace_of_ne hid hnew _ ms
  · rfl

theorem nodup_names_renameId (hnodup : (names ms).Nodup) : (names (renameId ms)).Nodup := by
  unfold renameId
  split
  · split
    · exact hnodup
    · next hhas => exact nodup_names_replace hnodup (fun h => hhas (has_iff.mpr h)) _
  · exact hnodup

theorem collapseEnum_lookups (hnodup : (names ms).Nodup) : EnumLookups ms (collapseEnum ms) := by
  unfold collapseEnum
  split
  · next hguard =>
      rw [Bool.and_eq_true, Bool.not_eq_true', has_eq_false_iff, has_iff] at hguard
      obtain ⟨htype, hconst⟩ := hguard
      split
      · next v henum =>
          exact .collapsed v (fun h => find?_eq_none_iff.mp h htype) henum hconst
            (find?_replace_old hnodup (by decide) _)
            (find?_replace_new (mem_names_of_mem (mem_of_find? henum))
              (find?_eq_none_iff.mp hconst) _)
      · next henum => exact .kept rfl rfl fun v _ hv => absurd hv (henum v)
  · next hguard =>
      refine .kept rfl rfl fun v htype _ hconst => hguard ?_
      rw [Bool.and_eq_true, Bool.not_eq_true', has_eq_false_iff, has_iff]
      exact ⟨Decidable.not_not.mp (mt find?_eq_none_iff.mpr htype), hconst⟩

theorem find?_collapseEnum {k : String} (henum : k ≠ "enum") (hconst : k ≠ "const") :
    find? k (collapseEnum ms) = find? k ms := by
  unfold collapseEnum
  split
  · split
    · exact find?_replace_of_ne henum hconst _ ms
    · rfl
  · rfl

theorem nodup_names_collapseEnum (hnodup : (names ms).Nodup) :
    (names (collapseEnum ms)).Nodup := by
  unfold collapseEnum
  split
  · next hguard =>
      rw [Bool.and_eq_true, Bool.not_eq_true', has_eq_false_iff] at hguard
      split
      · exact nodup_names_replace hnodup (find?_eq_none_iff.mp hguard.2) _
      · exact hnodup
  · exact hnodup

section LiftBound

variable {flag bound : String}

theorem liftBound_lookups (hne : flag ≠ bound) (hnodup : (names ms).Nodup) :
    BoundLookups flag bound ms (liftBound flag bound ms) := by
  unfold liftBound
  split
  · next b hflag =>
      split
      · next n hbound =>
          refine .lifted n hflag hbound (find?_put_self _ _ _) ?_
          rw [find?_put_of_ne hne.symm, find?_remove_self hnodup]
      · next hnumber =>
          exact .dropped _ hflag (fun hb n hn => hnumber n hb hn) (find?_remove_self hnodup flag)
            (find?_remove_of_ne hne.symm ms)
  · next hflag => exact .kept rfl rfl hflag

theorem find?_liftBound {k : String} (hflag : k ≠ flag) (hbound : k ≠ bound) :
    find? k (liftBound flag bound ms) = find? k ms := by
  unfold liftBound
  split
  · split
    · rw [find?_put_of_ne hflag, find?_remove_of_ne hbound]
    · exact find?_remove_of_ne hflag ms
  · rfl

theorem nodup_names_liftBound (hnodup : (names ms).Nodup) :
    (names (liftBound flag bound ms)).Nodup := by
  unfold liftBound
  split
  · split
    · exact nodup_names_put (nodup_names_remove hnodup bound) _ _
    · exact nodup_names_remove hnodup flag
  · exact hnodup

end LiftBound

/-! ### All four together -/

/-- The names that a rewrite looks for or brings in. -/
def rewrittenNames : List String :=
  ["id", "$id", "enum", "const", "exclusiveMaximum", "maximum", "exclusiveMinimum", "minimum"]

theorem nodup_names_migrateKeywords (hnodup : (names ms).Nodup) :
    (names (migrateKeywords ms)).Nodup :=
  nodup_names_liftBound (nodup_names_liftBound (nodup_names_collapseEnum
    (nodup_names_renameId hnodup)))

theorem find?_migrateKeywords {k : String} (hk : k ∉ rewrittenNames) :
    find? k (migrateKeywords ms) = find? k ms := by
  simp only [rewrittenNames, List.mem_cons, not_or] at hk
  obtain ⟨hid, hnewId, henum, hconst, hexMax, hmax, hexMin, hmin, _⟩ := hk
  rw [migrateKeywords, find?_liftBound hexMin hmin, find?_liftBound hexMax hmax,
    find?_collapseEnum henum hconst, find?_renameId hid hnewId]

theorem filter_migrateKeywords {p : String → Bool} (hp : ∀ k ∈ rewrittenNames, p k = false)
    (ms : Members) : (migrateKeywords ms).filter (p ·.1) = List.filter (p ·.1) ms := by
  have hid : (renameId ms).filter (p ·.1) = List.filter (p ·.1) ms := by
    unfold renameId
    split
    · split
      · rfl
      · exact filter_replace (hp _ (by decide)) (hp _ (by decide)) _ ms
    · rfl
  have henum : ∀ ms, (collapseEnum ms).filter (p ·.1) = List.filter (p ·.1) ms := by
    intro ms
    unfold collapseEnum
    split
    · split
      · exact filter_replace (hp _ (by decide)) (hp _ (by decide)) _ ms
      · rfl
    · rfl
  have hbound : ∀ {flag bound}, p flag = false → p bound = false → ∀ ms,
      (liftBound flag bound ms).filter (p ·.1) = List.filter (p ·.1) ms := by
    intro flag bound hflag hbound ms
    unfold liftBound
    split
    · split
      · rw [filter_put hflag, filter_remove hbound]
      · exact filter_remove hflag ms
    · rfl
  rw [migrateKeywords, hbound (hp _ (by decide)) (hp _ (by decide)),
    hbound (hp _ (by decide)) (hp _ (by decide)), henum, hid]

theorem migrateKeywords_ids (hnodup : (names ms).Nodup) : IdLookups ms (migrateKeywords ms) := by
  have hlater : ∀ k, k = "id" ∨ k = "$id" →
      find? k (migrateKeywords ms) = find? k (renameId ms) := by
    intro k hk
    rw [migrateKeywords, find?_liftBound, find?_liftBound, find?_collapseEnum] <;>
      rcases hk with rfl | rfl <;> decide
  cases renameId_lookups hnodup with
  | kept hid hnew hwhy =>
      exact .kept ((hlater _ (.inl rfl)).trans hid) ((hlater _ (.inr rfl)).trans hnew) hwhy
  | renamed s hold hfree hid hnew =>
      exact .renamed s hold hfree ((hlater _ (.inl rfl)).trans hid)
        ((hlater _ (.inr rfl)).trans hnew)

theorem migrateKeywords_enum (hnodup : (names ms).Nodup) :
    EnumLookups ms (migrateKeywords ms) := by
  have hearlier : ∀ k, k = "type" ∨ k = "enum" ∨ k = "const" →
      find? k (renameId ms) = find? k ms := by
    intro k hk
    apply find?_renameId <;> rcases hk with rfl | rfl | rfl <;> decide
  have hlater : ∀ k, k = "enum" ∨ k = "const" →
      find? k (migrateKeywords ms) = find? k (collapseEnum (renameId ms)) := by
    intro k hk
    rw [migrateKeywords, find?_liftBound, find?_liftBound] <;>
      rcases hk with rfl | rfl <;> decide
  have henumLater := hlater "enum" (.inl rfl)
  have hconstLater := hlater "const" (.inr rfl)
  have hcases := collapseEnum_lookups (nodup_names_renameId hnodup)
  cases hcases with
  | kept henum hconst hwhy =>
      rw [hearlier _ (.inr (.inl rfl))] at henum
      rw [hearlier _ (.inr (.inr rfl))] at hconst
      simp only [hearlier "type" (.inl rfl), hearlier "enum" (.inr (.inl rfl)),
        hearlier "const" (.inr (.inr rfl))] at hwhy
      exact .kept (henumLater.trans henum) (hconstLater.trans hconst) hwhy
  | collapsed v htype hold hfree henum hconst =>
      rw [hearlier _ (.inl rfl)] at htype
      rw [hearlier _ (.inr (.inl rfl))] at hold
      rw [hearlier _ (.inr (.inr rfl))] at hfree
      exact .collapsed v htype hold hfree (henumLater.trans henum) (hconstLater.trans hconst)

/-- What a rewrite does to a flag and its bound depends on nothing but these two. -/
theorem BoundLookups.of_eq {flag bound : String} {before before' after after' : Members}
    (h : BoundLookups flag bound before after) (hflag : find? flag before = find? flag before')
    (hbound : find? bound before = find? bound before')
    (hflag' : find? flag after' = find? flag after)
    (hbound' : find? bound after' = find? bound after) :
    BoundLookups flag bound before' after' := by
  cases h with
  | kept hf hb hwhy =>
      exact .kept (hflag'.trans (hf.trans hflag)) (hbound'.trans (hb.trans hbound))
        (hflag ▸ hwhy)
  | lifted n hold hnumber hf hb =>
      exact .lifted n (hflag ▸ hold) (hbound ▸ hnumber) (hflag'.trans hf) (hbound'.trans hb)
  | dropped b hold hwhy hf hb =>
      exact .dropped b (hflag ▸ hold) (hbound ▸ hwhy) (hflag'.trans hf)
        (hbound'.trans (hb.trans hbound))

theorem migrateKeywords_maximum (hnodup : (names ms).Nodup) :
    BoundLookups "exclusiveMaximum" "maximum" ms (migrateKeywords ms) := by
  have hearlier : ∀ k, k = "exclusiveMaximum" ∨ k = "maximum" →
      find? k (collapseEnum (renameId ms)) = find? k ms := by
    intro k hk
    rw [find?_collapseEnum, find?_renameId] <;> rcases hk with rfl | rfl <;> decide
  have hlater : ∀ k, k = "exclusiveMaximum" ∨ k = "maximum" → find? k (migrateKeywords ms) =
      find? k (liftBound "exclusiveMaximum" "maximum" (collapseEnum (renameId ms))) := by
    intro k hk
    rw [migrateKeywords, find?_liftBound] <;> rcases hk with rfl | rfl <;> decide
  have hcases : BoundLookups "exclusiveMaximum" "maximum" (collapseEnum (renameId ms)) _ :=
    liftBound_lookups (by decide) (nodup_names_collapseEnum (nodup_names_renameId hnodup))
  exact hcases.of_eq (hearlier _ (.inl rfl)) (hearlier _ (.inr rfl)) (hlater _ (.inl rfl))
    (hlater _ (.inr rfl))

theorem migrateKeywords_minimum (hnodup : (names ms).Nodup) :
    BoundLookups "exclusiveMinimum" "minimum" ms (migrateKeywords ms) := by
  have hearlier : ∀ k, k = "exclusiveMinimum" ∨ k = "minimum" →
      find? k (liftBound "exclusiveMaximum" "maximum" (collapseEnum (renameId ms))) =
        find? k ms := by
    intro k hk
    rw [find?_liftBound, find?_collapseEnum, find?_renameId] <;>
      rcases hk with rfl | rfl <;> decide
  have hcases : BoundLookups "exclusiveMinimum" "minimum"
      (liftBound "exclusiveMaximum" "maximum" (collapseEnum (renameId ms))) _ :=
    liftBound_lookups (by decide)
      (nodup_names_liftBound (nodup_names_collapseEnum (nodup_names_renameId hnodup)))
  exact hcases.of_eq (hearlier _ (.inl rfl)) (hearlier _ (.inr rfl)) rfl rfl

/-- A property of all values in an object stays one, if it goes from the only item of an array to
the item: the rewrites bring in no other values. -/
theorem forall_find?_migrateKeywords {p : Json → Prop} (hnodup : (names ms).Nodup)
    (hitem : ∀ v, p (.array [v]) → p v) (h : ∀ k v, find? k ms = some v → p v) :
    ∀ k v, find? k (migrateKeywords ms) = some v → p v := by
  intro k v hfind
  by_cases hk : k ∈ rewrittenNames
  · simp only [rewrittenNames, List.mem_cons, List.not_mem_nil, or_false] at hk
    have hboundValue : ∀ {flag bound}, BoundLookups flag bound ms (migrateKeywords ms) →
        k = flag ∨ k = bound → p v := by
      intro flag bound hlookups hk
      cases hlookups with
      | kept hflag hbound hwhy =>
          rcases hk with rfl | rfl
          · exact h _ v (hflag ▸ hfind)
          · exact h _ v (hbound ▸ hfind)
      | lifted n hold hnumber hflag hbound =>
          rcases hk with rfl | rfl
          · exact Option.some.inj (hflag.symm.trans hfind) ▸ h _ _ hnumber
          · simp [hbound] at hfind
      | dropped b hold hwhy hflag hbound =>
          rcases hk with rfl | rfl
          · simp [hflag] at hfind
          · exact h _ v (hbound ▸ hfind)
    have hidValue : k = "id" ∨ k = "$id" → p v := by
      intro hk
      cases migrateKeywords_ids hnodup with
      | kept hid hnew hwhy =>
          rcases hk with rfl | rfl
          · exact h _ v (hid ▸ hfind)
          · exact h _ v (hnew ▸ hfind)
      | renamed s hold hfree hid hnew =>
          rcases hk with rfl | rfl
          · simp [hid] at hfind
          · exact Option.some.inj (hnew.symm.trans hfind) ▸ h _ _ hold
    have henumValue : k = "enum" ∨ k = "const" → p v := by
      intro hk
      cases migrateKeywords_enum hnodup with
      | kept henum hconst hwhy =>
          rcases hk with rfl | rfl
          · exact h _ v (henum ▸ hfind)
          · exact h _ v (hconst ▸ hfind)
      | collapsed w htype hold hfree henum hconst =>
          rcases hk with rfl | rfl
          · simp [henum] at hfind
          · exact Option.some.inj (hconst.symm.trans hfind) ▸ hitem w (h _ _ hold)
    rcases hk with hk | hk | hk | hk | hk | hk | hk | hk
    · exact hidValue (.inl hk)
    · exact hidValue (.inr hk)
    · exact henumValue (.inl hk)
    · exact henumValue (.inr hk)
    · exact hboundValue (migrateKeywords_maximum hnodup) (.inl hk)
    · exact hboundValue (migrateKeywords_maximum hnodup) (.inr hk)
    · exact hboundValue (migrateKeywords_minimum hnodup) (.inl hk)
    · exact hboundValue (migrateKeywords_minimum hnodup) (.inr hk)
  · exact h k v (find?_migrateKeywords hk ▸ hfind)

/-! ### The whole walk -/

theorem hasDistinctNames_migrateUnder {k : String} {v : Json} (hv : v.HasDistinctNames)
    (h : ∀ w ∈ schemasUnder k v, (migrateSchema w).HasDistinctNames) :
    (migrateUnder k v).HasDistinctNames := by
  cases holds k v with
  | data hmigrate _ => rwa [hmigrate]
  | one hmigrate hschemas =>
      rw [hmigrate]
      exact h v (hschemas ▸ List.mem_singleton_self v)
  | list items _ hmigrate hschemas =>
      rw [hmigrate, Json.hasDistinctNames_array, List.forall_mem_map]
      exact hschemas ▸ h
  | named named hnamed hmigrate hschemas =>
      rw [hschemas, List.forall_mem_map] at h
      rw [hmigrate, Json.hasDistinctNames_object, names_mapValues, mapValues, List.forall_mem_map]
      exact ⟨(Json.hasDistinctNames_object.mp (hnamed ▸ hv)).1, h⟩

theorem hasDistinctNames_migrateSchema {s : Json} (hs : s.HasDistinctNames) :
    (migrateSchema s).HasDistinctNames := by
  induction s using schemaInduction with
  | other v hobject => rwa [migrateSchema_of_not_object hobject]
  | object ms ih =>
      obtain ⟨hnodup, hvalues⟩ := Json.hasDistinctNames_object.mp hs
      have hnodup' : (names (mapValues migrateUnder ms)).Nodup := nodup_names_mapValues hnodup
      rw [migrateSchema_object, Json.hasDistinctNames_object]
      refine ⟨nodup_names_migrateKeywords hnodup', ?_⟩
      rw [forall_mem_iff_forall_find? (p := fun _ v => v.HasDistinctNames)
        (nodup_names_migrateKeywords hnodup')]
      refine forall_find?_migrateKeywords hnodup' (fun v hv => ?_) fun k v hfind => ?_
      · exact Json.hasDistinctNames_array.mp hv v (List.mem_singleton_self v)
      · rw [find?_mapValues, Option.map_eq_some_iff] at hfind
        obtain ⟨w, hw, rfl⟩ := hfind
        have hmem := mem_of_find? hw
        refine hasDistinctNames_migrateUnder (hvalues _ hmem) fun x hx => ih _ hmem x hx ?_
        exact hasDistinctNames_of_mem_schemasUnder (hvalues _ hmem) hx

theorem migrate_object {d : Draft} (hd : d ≠ .draft04) (ms : Members) :
    migrate (.object ms) d = .object (put "$schema" (.string d.metaSchemaUri)
      (migrateKeywords (mapValues migrateUnder ms))) := by
  cases d with
  | draft04 => exact absurd rfl hd
  | _ => rw [migrate, migrateSchema_object, declare]

theorem migrate_of_not_object {v : Json} (h : v.isObject = false) (d : Draft) : migrate v d = v := by
  cases v with
  | object ms => exact absurd h (by simp [Json.isObject])
  | _ => cases d <;> rfl

theorem hasDistinctNames_migrate {s : Json} (hs : s.HasDistinctNames) (d : Draft) :
    (migrate s d).HasDistinctNames := by
  have hdeclare : ∀ d, (declare d (migrateSchema s)).HasDistinctNames := by
    intro d
    have hmigrated := hasDistinctNames_migrateSchema hs
    cases hv : migrateSchema s with
    | object ms =>
        rw [hv] at hmigrated
        exact Json.hasDistinctNames_put hmigrated trivial
    | _ => rwa [hv] at hmigrated
  cases d with
  | draft04 => exact hs
  | draft06 => exact hdeclare .draft06
  | draft07 => exact hdeclare .draft07

end RamlSchema.Migration
