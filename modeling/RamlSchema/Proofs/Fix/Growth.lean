import RamlSchema.Proofs.Fix.Names

/-!
# What fixing adds to a schema

The description of a file puts its media types two levels deeper, and nothing else that fixing does
makes a schema deeper. So the depth of a fixed schema is bounded by the files that contain each
other. No number is added.
-/

namespace RamlSchema

open Members Json

mutual

/-- How many files are nested in each other. -/
def Json.fileDepth : Json → Nat
  | .object ms => fileDepthMembers ms + (if FileType.isFile ms then 1 else 0)
  | .array items => fileDepthItems items
  | .null => 0
  | .boolean _ => 0
  | .number _ => 0
  | .string _ => 0
termination_by structural v => v

def Json.fileDepthItems : List Json → Nat
  | [] => 0
  | v :: rest => max (fileDepth v) (fileDepthItems rest)
termination_by structural vs => vs

def Json.fileDepthMembers : List (String × Json) → Nat
  | [] => 0
  | (_, v) :: rest => max (fileDepth v) (fileDepthMembers rest)
termination_by structural ms => ms

end

theorem Json.fileDepth_le_fileDepthItems {items : List Json} {v : Json} (h : v ∈ items) :
    v.fileDepth ≤ fileDepthItems items := by
  induction items with
  | nil => exact absurd h List.not_mem_nil
  | cons w rest ih =>
      rw [fileDepthItems]
      rcases List.mem_cons.mp h with rfl | h
      · exact Nat.le_max_left _ _
      · exact Nat.le_trans (ih h) (Nat.le_max_right _ _)

theorem Json.fileDepth_le_fileDepthMembers {ms : Members} {m : String × Json} (h : m ∈ ms) :
    m.2.fileDepth ≤ fileDepthMembers ms := by
  induction ms with
  | nil => exact absurd h List.not_mem_nil
  | cons n rest ih =>
      obtain ⟨k, w⟩ := n
      rw [fileDepthMembers]
      rcases List.mem_cons.mp h with rfl | h
      · exact Nat.le_max_left _ _
      · exact Nat.le_trans (ih h) (Nat.le_max_right _ _)

/-- Each media type stands two levels deeper than in the list that declared it. -/
theorem FileType.depth_media_le {declared : Option Json} {n : Nat}
    (h : ∀ v, declared = some v → v.depth ≤ n) : (media declared).depth ≤ n + 2 := by
  rw [media, depth_object_le_iff, List.forall_mem_cons]
  refine ⟨Nat.zero_le _, fun m hm => ?_⟩
  unfold alternatives at hm
  split at hm
  · next t ts =>
      rw [List.mem_singleton] at hm
      subst hm
      have hlist := h _ rfl
      cases n with
      | zero => exact absurd hlist (Nat.not_succ_le_zero _)
      | succ n =>
          rw [depth_array_le_iff] at hlist ⊢
          rw [List.forall_mem_map]
          intro mediaType hmem
          rw [depth_object_le_iff, List.forall_mem_singleton]
          exact hlist mediaType hmem
  · exact absurd hm List.not_mem_nil

theorem depth_le_of_mem_fixNode {ms : Members} {n : Nat} (h : ∀ m ∈ ms, m.2.depth ≤ n)
    {m : String × Json} (hm : m ∈ fixNode ms) :
    m.2.depth ≤ n + 2 * (if FileType.isFile ms then 1 else 0) := by
  have hfile : ∀ m ∈ FileType.rule.step ms,
      m.2.depth ≤ n + 2 * (if FileType.isFile ms then 1 else 0) := by
    intro m hm
    cases hfile : FileType.isFile ms with
    | false =>
        have hstep : FileType.rule.step ms = ms := Rule.step_of_not_applies hfile
        rw [hstep] at hm
        exact h m hm
    | true =>
        rcases FileType.mem_step hm with hm | rfl | rfl
        · exact Nat.le_trans (h m hm) (Nat.le_add_right _ _)
        · exact Nat.zero_le _
        · exact FileType.depth_media_le fun v hv => h _ (mem_of_find? hv)
  have hvendor : ∀ m ∈ VendorName.rule.step (FileType.rule.step ms),
      m.2.depth ≤ n + 2 * (if FileType.isFile ms then 1 else 0) := by
    intro m hm
    obtain ⟨k, hk, _⟩ := VendorName.mem_step hm
    exact hfile (k, m.2) hk
  rcases ExampleList.mem_step hm with hm | ⟨es, hes, rfl⟩
  · exact hvendor m hm
  · have hmapping := hvendor _ hes
    cases hbound : n + 2 * (if FileType.isFile ms then 1 else 0) with
    | zero =>
        rw [hbound] at hmapping
        exact absurd hmapping (Nat.not_succ_le_zero _)
    | succ bound =>
        rw [hbound, depth_object_le_iff] at hmapping
        rw [depth_array_le_iff, List.forall_mem_map]
        exact hmapping

/-- Fixing makes a schema two levels deeper at most for every file around the same place. -/
theorem depth_fixSchema_le (v : Json) : (fixSchema v).depth ≤ v.depth + 2 * v.fileDepth := by
  induction v using Json.induction with
  | array items ih =>
      have hdepth : (array items).depth = depthItems items + 1 := rfl
      have hfiles : (array items).fileDepth = fileDepthItems items := rfl
      have hle : (array (items.map fixSchema)).depth ≤
          depthItems items + 2 * fileDepthItems items + 1 := by
        rw [depth_array_le_iff, List.forall_mem_map]
        intro v hv
        have hfixed := ih v hv
        have hbelow := depthItems_le_iff.mp (Nat.le_refl _) v hv
        have hinside := fileDepth_le_fileDepthItems hv
        omega
      rw [fixSchema_array]
      omega
  | object ms ih =>
      have hdepth : (object ms).depth = depthMembers ms + 1 := rfl
      have hfiles : (object ms).fileDepth =
          fileDepthMembers ms + (if FileType.isFile ms then 1 else 0) := rfl
      have hvalues : ∀ m ∈ mapValues (fun _ => fixSchema) ms,
          m.2.depth ≤ depthMembers ms + 2 * fileDepthMembers ms := by
        rw [mapValues, List.forall_mem_map]
        intro m hm
        have hfixed := ih m hm
        have hbelow := depthMembers_le_iff.mp (Nat.le_refl _) m hm
        have hinside := fileDepth_le_fileDepthMembers hm
        show (fixSchema m.2).depth ≤ _
        omega
      have hle : (object (fixNode (mapValues (fun _ => fixSchema) ms))).depth ≤
          depthMembers ms + 2 * (object ms).fileDepth + 1 := by
        rw [depth_object_le_iff]
        intro m hm
        have hnode := depth_le_of_mem_fixNode hvalues hm
        rw [FileType.isFile_mapValues walks_fixSchema] at hnode
        omega
      rw [fixSchema_object_eq_fixNode]
      omega
  | _ => exact Nat.zero_le _

theorem allNumbers_fixSchema {n : Number} {v : Json} (h : n ∈ (fixSchema v).allNumbers) :
    n ∈ v.allNumbers := by
  induction v using Json.induction with
  | array items ih =>
      rw [fixSchema_array, mem_allNumbers_array] at h
      obtain ⟨w, hw, h⟩ := h
      obtain ⟨v, hv, rfl⟩ := List.mem_map.mp hw
      exact mem_allNumbers_array.mpr ⟨v, hv, ih v hv h⟩
  | object ms ih =>
      rw [fixSchema_object_eq_fixNode, mem_allNumbers_object] at h
      obtain ⟨m, hm, h⟩ := h
      obtain ⟨w, hw, h⟩ := FileType.exists_of_mem_fixNode (spreads_allNumbers n)
        (fun _ _ => id) hm h
      obtain ⟨v, hv, rfl⟩ := List.mem_map.mp hw
      exact mem_allNumbers_object.mpr ⟨v, hv, ih v hv h⟩
  | _ => exact h

end RamlSchema
