import RamlSchema.Proofs.Json.Entries
import RamlSchema.Proofs.Migration.Objects

/-!
# Members of a migrated object

Migration rewrites an object as a whole, one keyword after the other, and yet what becomes of a member
can be said of each by itself: the members stay in their order, and six names decide which of them get
another name, another value or no place any more. The rewrites are put into this form one by one. Each
looks for names that no other one changes, so all of them look at the object as it was before.

What stands where no schema can stand is the same tree before and after, at any depth, and names that
an author chose stay as they are.
-/

namespace RamlSchema

open Members

namespace Migration

/-! ### What becomes of a member -/

/-- What stands under a keyword after migration. Lists of schemas and mappings of schemas keep their
order and their names; a dependency that is no object, and all that stands under another keyword, is
kept as it is. -/
def valueAfter (k : String) (v : Json) : Json :=
  if k ∈ SchemaStep.alone then migrateSchema v
  else if k ∈ SchemaStep.listed then
    match v with
    | .array items => .array (items.map migrateSchema)
    | v => migrateSchema v
  else if k ∈ SchemaStep.mapped then
    match v with
    | .object named => .object (named.map fun m => (m.1, migrateSchema m.2))
    | v => v
  else if k = "dependencies" then
    match v with
    | .object named =>
      .object (named.map fun m => (m.1, if m.2.isObject then migrateSchema m.2 else m.2))
    | v => v
  else v

/-- A flag takes the number of its bound if it is set and there is one, and goes if not. -/
def flagAfter (name : String) : Bool → Option Json → Option (String × Json)
  | true, some (.number n) => some (name, .number n)
  | _, _ => none

/-- A number that bounds goes if its flag is set. -/
def boundAfter (name : String) (n : Number) : Option Json → Option (String × Json)
  | some (.boolean true) => none
  | _ => some (name, .number n)

/-- What becomes of a member of an object with the members `ms`. -/
def entryAfter (ms : Members) : String × Json → Option (String × Json)
  | ("id", .string s) => some (if has "$id" ms then "id" else "$id", .string s)
  | ("enum", .array [v]) =>
    some (if has "type" ms && !has "const" ms then ("const", v) else ("enum", .array [v]))
  | ("exclusiveMaximum", .boolean b) => flagAfter "exclusiveMaximum" b (find? "maximum" ms)
  | ("exclusiveMinimum", .boolean b) => flagAfter "exclusiveMinimum" b (find? "minimum" ms)
  | ("maximum", .number n) => boundAfter "maximum" n (find? "exclusiveMaximum" ms)
  | ("minimum", .number n) => boundAfter "minimum" n (find? "exclusiveMinimum" ms)
  | (k, v) => some (k, valueAfter k v)

/-- The members of an object after migration. -/
def entriesAfter (ms : Members) : Members :=
  ms.filterMap (entryAfter ms)

/-- An object that names a draft: where it named one before, or behind all other members. -/
def declaringEntries (uri : String) (ms : Members) : Members :=
  if has "$schema" ms then mapValues (fun k v => if k = "$schema" then .string uri else v) ms
  else ms ++ [("$schema", .string uri)]

theorem position_of_not_mem_keywords {k : String} (hk : k ∉ SchemaStep.keywords) :
    position k = .data := by
  simp only [SchemaStep.keywords, List.mem_append, not_or] at hk
  obtain ⟨⟨⟨halone, hlisted⟩, hmapped⟩, hdependencies⟩ := hk
  have hnamed : k ∉ SchemaStep.mapped ++ ["dependencies"] := by
    rw [List.mem_append, not_or]
    exact ⟨hmapped, hdependencies⟩
  unfold position
  rw [if_neg (show k ∉ schemaKeywords from halone), if_neg (show k ∉ schemasKeywords from hlisted),
    if_neg (show k ∉ namedKeywords from hnamed)]

theorem migrateUnder_eq_valueAfter (k : String) (v : Json) :
    migrateUnder k v = valueAfter k v := by
  unfold valueAfter
  split
  · next halone => exact migrateUnder_alone halone v
  · next halone =>
      split
      · next hlisted =>
          cases v with
          | array items => exact migrateUnder_listed_array hlisted items
          | _ => exact migrateUnder_listed hlisted (by simp [Json.typeName])
      · next hlisted =>
          split
          · next hmapped =>
              have hposition : ∀ k ∈ SchemaStep.mapped, position k = .named := by decide
              cases v <;> simp only [migrateUnder, hposition k hmapped, mapValues]
          · next hmapped =>
              split
              · next hdependencies =>
                  have hposition : position k = .named := hdependencies ▸ by decide
                  cases v with
                  | object named =>
                      simp only [migrateUnder, hposition, mapValues]
                      refine congrArg Json.object (List.map_congr_left fun m _ => ?_)
                      split
                      · rfl
                      · next hobject =>
                          rw [migrateSchema_of_not_object (Bool.eq_false_iff.mpr hobject)]
                  | _ => simp only [migrateUnder, hposition]
              · next hdependencies =>
                  apply migrateUnder_data
                  apply position_of_not_mem_keywords
                  simp [SchemaStep.keywords, halone, hlisted, hmapped, hdependencies]

theorem valueAfter_of_data {k : String} (h : position k = .data) (v : Json) :
    valueAfter k v = v := by
  rw [← migrateUnder_eq_valueAfter, migrateUnder_data h]

/-! ### What each rewrite makes of a member -/

def renamedEntry (ms : Members) : String × Json → Option (String × Json)
  | ("id", .string s) => some (if has "$id" ms then "id" else "$id", .string s)
  | m => some m

def collapsedEntry (ms : Members) : String × Json → Option (String × Json)
  | ("enum", .array [v]) =>
    some (if has "type" ms && !has "const" ms then ("const", v) else ("enum", .array [v]))
  | m => some m

def boundEntry (flag bound : String) (ms : Members) (m : String × Json) :
    Option (String × Json) :=
  if m.1 = bound then
    match m.2 with
    | .number n => boundAfter bound n (find? flag ms)
    | v => some (bound, v)
  else some m

def flagEntry (flag bound : String) (ms : Members) (m : String × Json) : Option (String × Json) :=
  if m.1 = flag then
    match m.2 with
    | .boolean b => flagAfter flag b (find? bound ms)
    | v => some (flag, v)
  else some m

section Entry

variable {ms : Members} {m : String × Json}

theorem renamedEntry_of_ne (h : m.1 ≠ "id") : renamedEntry ms m = some m := by
  unfold renamedEntry
  split
  · exact absurd rfl h
  · rfl

theorem collapsedEntry_of_ne (h : m.1 ≠ "enum") : collapsedEntry ms m = some m := by
  unfold collapsedEntry
  split
  · exact absurd rfl h
  · rfl

variable {flag bound : String}

theorem boundEntry_of_ne (h : m.1 ≠ bound) : boundEntry flag bound ms m = some m :=
  if_neg h

theorem boundEntry_number (n : Number) :
    boundEntry flag bound ms (bound, .number n) = boundAfter bound n (find? flag ms) :=
  if_pos rfl

theorem flagEntry_of_ne (h : m.1 ≠ flag) : flagEntry flag bound ms m = some m :=
  if_neg h

theorem flagEntry_boolean (b : Bool) :
    flagEntry flag bound ms (flag, .boolean b) = flagAfter flag b (find? bound ms) :=
  if_pos rfl

end Entry

theorem boundAfter_of_ne {name : String} {n : Number} {flag : Option Json}
    (h : flag ≠ some (.boolean true)) : boundAfter name n flag = some (name, .number n) := by
  unfold boundAfter
  split
  · exact absurd rfl h
  · rfl

theorem flagAfter_eq_none {name : String} {b : Bool} {bound : Option Json}
    (h : ∀ n, b = true → bound ≠ some (.number n)) : flagAfter name b bound = none := by
  unfold flagAfter
  split
  · next n => exact absurd rfl (h n rfl)
  · rfl

/-! ### Each rewrite, member by member

The members `before` are those from before all rewrites. Under the names that a rewrite looks for they
have what the rewrite finds.
-/

section Rewrite

variable {ms before : Members} (hnodup : (names ms).Nodup)

include hnodup

theorem renameId_eq_filterMap (hnew : has "$id" ms = has "$id" before) :
    renameId ms = ms.filterMap (renamedEntry before) := by
  unfold renameId
  rw [hnew]
  split
  · next s hid =>
      split
      · next hhas =>
          symm
          apply filterMap_eq_self
          intro m _
          unfold renamedEntry
          split
          · rw [if_pos hhas]
          · rfl
      · next hhas =>
          apply replace_eq_filterMap hnodup hid fun m _ hname => renamedEntry_of_ne hname
          rw [renamedEntry, if_neg hhas]
  · next hid =>
      symm
      apply filterMap_eq_self
      intro m hm
      unfold renamedEntry
      split
      · next s => exact absurd ((find?_eq_some_iff hnodup).mpr hm) (hid s)
      · rfl

theorem collapseEnum_eq_filterMap (htype : has "type" ms = has "type" before)
    (hconst : has "const" ms = has "const" before) :
    collapseEnum ms = ms.filterMap (collapsedEntry before) := by
  unfold collapseEnum
  rw [htype, hconst]
  split
  · next hguard =>
      split
      · next v henum =>
          apply replace_eq_filterMap hnodup henum fun m _ hname => collapsedEntry_of_ne hname
          rw [collapsedEntry, if_pos hguard]
      · next henum =>
          symm
          apply filterMap_eq_self
          intro m hm
          unfold collapsedEntry
          split
          · next v => exact absurd ((find?_eq_some_iff hnodup).mpr hm) (henum v)
          · rfl
  · next hguard =>
      symm
      apply filterMap_eq_self
      intro m _
      unfold collapsedEntry
      split
      · rw [if_neg hguard]
      · rfl

/-- The bound goes first, and the flag keeps its place when it takes the number. -/
theorem liftBound_eq_filterMap {flag bound : String} (hne : flag ≠ bound)
    (hflag : find? flag ms = find? flag before) (hbound : find? bound ms = find? bound before) :
    liftBound flag bound ms =
      (ms.filterMap (boundEntry flag bound before)).filterMap (flagEntry flag bound before) := by
  have hboundKept : (∀ n, find? bound before = some (.number n) →
      find? flag before ≠ some (.boolean true)) →
      ms.filterMap (boundEntry flag bound before) = ms := by
    intro h
    apply filterMap_eq_self
    intro m hm
    unfold boundEntry
    split
    · next hname =>
        split
        · next n hvalue =>
            have hmem : (bound, .number n) ∈ ms := hname ▸ hvalue ▸ hm
            have hnumber := hbound.symm.trans ((find?_eq_some_iff hnodup).mpr hmem)
            rw [boundAfter_of_ne (h n hnumber), ← hname, ← hvalue]
        · rw [← hname]
    · rfl
  unfold liftBound
  rw [hflag, hbound]
  split
  · next exclusive hset =>
      split
      · next n hnumber =>
          have hremove : remove bound ms = ms.filterMap (boundEntry flag bound before) := by
            apply remove_eq_filterMap hnodup (hbound.trans hnumber)
              fun m _ hname => boundEntry_of_ne hname
            rw [boundEntry_number, hset, boundAfter]
          have hkept : find? flag (remove bound ms) = some (.boolean true) :=
            (find?_remove_of_ne hne ms).trans (hflag.trans hset)
          rw [put_eq_replace (mem_names_of_mem (mem_of_find? hkept)), ← hremove]
          apply replace_eq_filterMap (nodup_names_remove hnodup bound) hkept
            fun m _ hname => flagEntry_of_ne hname
          rw [flagEntry_boolean, hnumber, flagAfter]
      · next hnumber =>
          rw [hboundKept]
          · apply remove_eq_filterMap hnodup (hflag.trans hset)
              fun m _ hname => flagEntry_of_ne hname
            rw [flagEntry_boolean]
            exact flagAfter_eq_none fun n hb hn => hnumber n hb hn
          · intro n hn heq
            rw [hset] at heq
            exact hnumber n (Json.boolean.inj (Option.some.inj heq)) hn
  · next hunset =>
      rw [hboundKept fun n _ => hunset true]
      symm
      apply filterMap_eq_self
      intro m hm
      unfold flagEntry
      split
      · next hname =>
          split
          · next b hvalue =>
              have hmem : (flag, .boolean b) ∈ ms := hname ▸ hvalue ▸ hm
              have hset := hflag.symm.trans ((find?_eq_some_iff hnodup).mpr hmem)
              exact absurd hset (hunset b)
          · rw [← hname]
      · rfl

end Rewrite

/-! ### All rewrites together -/

/-- What the rewrites make of a member, one after the other. -/
def entryRewritten (ms : Members) (m : String × Json) : Option (String × Json) :=
  (((((renamedEntry ms m).bind (collapsedEntry ms)).bind
    (boundEntry "exclusiveMaximum" "maximum" ms)).bind
    (flagEntry "exclusiveMaximum" "maximum" ms)).bind
    (boundEntry "exclusiveMinimum" "minimum" ms)).bind
    (flagEntry "exclusiveMinimum" "minimum" ms)

/-- The names of the members that a rewrite may change. -/
def entryNames : List String :=
  ["id", "enum", "exclusiveMaximum", "maximum", "exclusiveMinimum", "minimum"]

theorem entryAfter_of_not_mem {k : String} (hk : k ∉ entryNames) (ms : Members) (v : Json) :
    entryAfter ms (k, v) = some (k, valueAfter k v) := by
  simp only [entryNames, List.mem_cons, not_or] at hk
  unfold entryAfter
  split <;> simp_all

theorem entryRewritten_of_not_mem {k : String} (hk : k ∉ entryNames) (ms : Members) (v : Json) :
    entryRewritten ms (k, v) = some (k, v) := by
  simp only [entryNames, List.mem_cons, not_or] at hk
  obtain ⟨hid, henum, hexMax, hmax, hexMin, hmin, -⟩ := hk
  rw [entryRewritten, renamedEntry_of_ne hid, Option.bind_some, collapsedEntry_of_ne henum,
    Option.bind_some, boundEntry_of_ne hmax, Option.bind_some, flagEntry_of_ne hexMax,
    Option.bind_some, boundEntry_of_ne hmin, Option.bind_some, flagEntry_of_ne hexMin]

/-- A member that one rewrite changes is none that another one changes, before or after. -/
theorem entryRewritten_eq_entryAfter (ms : Members) (k : String) (v : Json) :
    entryRewritten ms (k, migrateUnder k v) = entryAfter ms (k, v) := by
  by_cases hk : k ∈ entryNames
  · have hdata : ∀ k ∈ entryNames, position k = .data := by decide
    have hvalue : valueAfter k v = v := valueAfter_of_data (hdata k hk) v
    have hkept : some (k, v) = some (k, valueAfter k v) := by rw [hvalue]
    rw [migrateUnder_eq_valueAfter, hvalue]
    simp only [entryNames, List.mem_cons, List.not_mem_nil, or_false] at hk
    rcases hk with rfl | rfl | rfl | rfl | rfl | rfl
    · cases v with
      | string s =>
          rw [entryRewritten, renamedEntry, entryAfter]
          split <;> rfl
      | _ => exact hkept
    · cases v with
      | array items =>
          match items with
          | [] => exact hkept
          | [w] =>
              rw [entryRewritten, renamedEntry_of_ne (show "enum" ≠ "id" by decide),
                Option.bind_some, collapsedEntry, entryAfter]
              split <;> rfl
          | _ :: _ :: _ => exact hkept
      | _ => exact hkept
    · cases v with
      | boolean b =>
          show ((flagAfter _ b _).bind _).bind _ = flagAfter _ b _
          unfold flagAfter
          split <;> rfl
      | _ => exact hkept
    · cases v with
      | number n =>
          show (((boundAfter _ n _).bind _).bind _).bind _ = boundAfter _ n _
          unfold boundAfter
          split <;> rfl
      | _ => exact hkept
    · cases v with
      | boolean b => rfl
      | _ => exact hkept
    · cases v with
      | number n =>
          show (boundAfter _ n _).bind _ = boundAfter _ n _
          unfold boundAfter
          split <;> rfl
      | _ => exact hkept
  · rw [entryRewritten_of_not_mem hk, entryAfter_of_not_mem hk, migrateUnder_eq_valueAfter]

/-- **The members of a migrated object are those of the object in the same order**, each as it becomes
by itself. -/
theorem migrateKeywords_eq_entriesAfter {ms : Members} (hnodup : (names ms).Nodup) :
    migrateKeywords (mapValues migrateUnder ms) = entriesAfter ms := by
  have hentries : (mapValues migrateUnder ms).filterMap (entryRewritten ms) = entriesAfter ms := by
    rw [mapValues, List.filterMap_map, entriesAfter]
    refine congrArg (List.filterMap · ms) ?_
    funext m
    exact entryRewritten_eq_entryAfter ms m.1 m.2
  have hbefore : ∀ k, position k = .data → find? k (mapValues migrateUnder ms) = find? k ms :=
    fun k hk => find?_mapValues_migrateUnder hk ms
  have hnodup₀ : (names (mapValues migrateUnder ms)).Nodup := nodup_names_mapValues hnodup
  rw [← hentries]
  generalize mapValues migrateUnder ms = ms₀ at hbefore hnodup₀
  have hrename : renameId ms₀ = ms₀.filterMap (renamedEntry ms) := by
    apply renameId_eq_filterMap hnodup₀
    rw [has, hbefore _ (by decide), has]
  have hnodup₁ := nodup_names_renameId hnodup₀
  have hcollapse : collapseEnum (renameId ms₀) = (renameId ms₀).filterMap (collapsedEntry ms) := by
    have hlookup : ∀ k, k = "type" ∨ k = "const" → has k (renameId ms₀) = has k ms := by
      intro k hk
      rw [has, find?_renameId, hbefore, has] <;> rcases hk with rfl | rfl <;> decide
    exact collapseEnum_eq_filterMap hnodup₁ (hlookup _ (.inl rfl)) (hlookup _ (.inr rfl))
  have hnodup₂ := nodup_names_collapseEnum hnodup₁
  have hmaximum := by
    have hlookup : ∀ k, k = "exclusiveMaximum" ∨ k = "maximum" →
        find? k (collapseEnum (renameId ms₀)) = find? k ms := by
      intro k hk
      rw [find?_collapseEnum, find?_renameId, hbefore] <;> rcases hk with rfl | rfl <;> decide
    exact liftBound_eq_filterMap hnodup₂ (by decide) (hlookup _ (.inl rfl)) (hlookup _ (.inr rfl))
  have hnodup₃ : (names (liftBound "exclusiveMaximum" "maximum" _)).Nodup :=
    nodup_names_liftBound hnodup₂
  have hminimum := by
    have hlookup : ∀ k, k = "exclusiveMinimum" ∨ k = "minimum" →
        find? k (liftBound "exclusiveMaximum" "maximum" (collapseEnum (renameId ms₀))) =
          find? k ms := by
      intro k hk
      rw [find?_liftBound, find?_collapseEnum, find?_renameId, hbefore] <;>
        rcases hk with rfl | rfl <;> decide
    exact liftBound_eq_filterMap hnodup₃ (by decide) (hlookup _ (.inl rfl)) (hlookup _ (.inr rfl))
  rw [migrateKeywords, hminimum, hmaximum, hcollapse, hrename]
  simp only [List.filterMap_filterMap]
  rfl

end Migration

end RamlSchema
