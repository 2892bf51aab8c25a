import DeadDrop.Record.Merge

/-!
# The depth of records

How many mappings a record has inside of one another, the root included. A merge at a path makes a
record as deep as the path needs and no deeper, and a stamp never makes one deeper; what the stamp
takes away is the case to watch, since a path may begin with the very name that is stamped.
-/

namespace DeadDrop

/-- Induction over values, with the hypothesis for every member of a mapping. -/
@[elab_as_elim]
theorem Value.inductionOn {motive : Value → Prop} (v : Value)
    (leaf : ∀ text, motive (.leaf text))
    (node : ∀ fields, (∀ entry ∈ fields, motive entry.2) → motive (.node fields)) : motive v :=
  match v with
  | .leaf text => leaf text
  | .node fields => node fields fun entry _ => Value.inductionOn entry.2 leaf node
termination_by sizeOf v
decreasing_by
  have hentry := List.sizeOf_lt_of_mem ‹entry ∈ fields›
  have hvalue : sizeOf entry.2 < sizeOf entry := by
    cases entry
    simp only [Prod.mk.sizeOf_spec]
    omega
  simp only [Value.node.sizeOf_spec]
  omega

mutual

/-- The number of mappings inside of one another in a value. -/
def Value.depth : Value → Nat
  | .leaf _ => 0
  | .node fields => membersDepth fields + 1

def membersDepth : List (Text × Value) → Nat
  | [] => 0
  | (_, value) :: rest => max value.depth (membersDepth rest)

end

/-- The number of mappings inside of one another, the root included. -/
def Record.depth (r : Record) : Nat := membersDepth r.fields + 1

theorem depth_le_membersDepth {entry : Text × Value} {fields : List (Text × Value)}
    (h : entry ∈ fields) : entry.2.depth ≤ membersDepth fields := by
  induction fields with
  | nil => simp at h
  | cons first rest ih =>
    rcases List.mem_cons.1 h with rfl | h
    · exact Nat.le_max_left _ _
    · exact Nat.le_trans (ih h) (Nat.le_max_right _ _)

theorem membersDepth_le_iff {fields : List (Text × Value)} {n : Nat} :
    membersDepth fields ≤ n ↔ ∀ entry ∈ fields, entry.2.depth ≤ n := by
  refine ⟨fun h entry he => Nat.le_trans (depth_le_membersDepth he) h, fun h => ?_⟩
  induction fields with
  | nil => exact Nat.zero_le n
  | cons first rest ih =>
    exact Nat.max_le.2 ⟨h first List.mem_cons_self, ih fun e he => h e (List.mem_cons_of_mem _ he)⟩

/-! ### Setting a field -/

theorem membersDepth_insert_le (name : Text) (value : Value) (fields : List (Text × Value)) :
    membersDepth (Assoc.insert name value fields) ≤ max value.depth (membersDepth fields) := by
  refine membersDepth_le_iff.2 fun entry he => ?_
  rcases Assoc.mem_insert he with rfl | he
  · exact Nat.le_max_left _ _
  · exact Nat.le_trans (depth_le_membersDepth he) (Nat.le_max_right _ _)

theorem depth_le_of_get? {name : Text} {value : Value} {fields : List (Text × Value)}
    (h : Assoc.get? name fields = some value) : value.depth ≤ membersDepth fields :=
  depth_le_membersDepth (Assoc.mem_of_get?_eq_some h)

theorem Record.depth_insertLeaf_le (r : Record) (name text : Text) :
    (r.insertLeaf name text).depth ≤ r.depth := by
  have h := membersDepth_insert_le name (.leaf text) r.fields
  simp only [Record.depth, Record.insertLeaf, Value.depth, Nat.zero_max] at h ⊢
  omega

theorem Record.depth_insertNode_le (r : Record) (name : Text) (inner : Record) :
    (r.insertNode name inner).depth ≤ max r.depth (inner.depth + 1) := by
  have h := membersDepth_insert_le name (.node inner.fields) r.fields
  simp only [Record.depth, Record.insertNode, Value.depth] at h ⊢
  omega

theorem Record.depth_ofParams (params : Params) : (Record.ofParams params).depth = 1 := by
  have h : membersDepth (Record.ofParams params).fields ≤ 0 := by
    refine membersDepth_le_iff.2 fun entry he => ?_
    obtain ⟨p, _, rfl⟩ := List.mem_map.1 he
    exact Nat.le_refl 0
  rw [Record.depth, Nat.le_zero.1 h]

/-! ### Merging at a path -/

theorem membersDepth_unionLeaves_le (fields : List (Text × Value)) (patch : List (Text × Text)) :
    membersDepth (unionLeaves fields patch) ≤ membersDepth fields := by
  induction patch generalizing fields with
  | nil => exact Nat.le_refl _
  | cons entry rest ih =>
    calc membersDepth (unionLeaves fields (entry :: rest))
        ≤ membersDepth (Assoc.insert entry.1 (.leaf entry.2) fields) := ih _
      _ ≤ max (Value.leaf entry.2).depth (membersDepth fields) := membersDepth_insert_le _ _ _
      _ = membersDepth fields := Nat.zero_max _

theorem membersDepth_slotFields (segment : Text) (fields : List (Text × Value)) :
    membersDepth (slotFields (Assoc.get? segment fields)) ≤ membersDepth fields - 1 := by
  match hslot : Assoc.get? segment fields with
  | none => exact Nat.zero_le _
  | some (.leaf _) => exact Nat.zero_le _
  | some (.node inner) =>
    have h := depth_le_of_get? hslot
    simp only [Value.depth] at h
    simp only [slotFields]
    omega

theorem membersDepth_mergeFields_le (patch : List (Text × Text)) (segments : List Text)
    (fields : List (Text × Value)) :
    membersDepth (mergeFields patch segments fields) ≤
      max (membersDepth fields) segments.length := by
  induction segments generalizing fields with
  | nil => exact Nat.le_trans (membersDepth_unionLeaves_le fields patch) (Nat.le_max_left _ _)
  | cons segment rest ih =>
    have hinner := ih (slotFields (Assoc.get? segment fields))
    have hslot := membersDepth_slotFields segment fields
    have hinsert := membersDepth_insert_le segment
      (.node (mergeFields patch rest (slotFields (Assoc.get? segment fields)))) fields
    simp only [mergeFields, List.length_cons]
    simp only [Value.depth] at hinsert
    omega

theorem length_le_membersDepth_mergeFields (patch : List (Text × Text)) (segments : List Text)
    (fields : List (Text × Value)) :
    segments.length ≤ membersDepth (mergeFields patch segments fields) := by
  induction segments generalizing fields with
  | nil => exact Nat.zero_le _
  | cons segment rest ih =>
    have hinner := ih (slotFields (Assoc.get? segment fields))
    have hvalue := depth_le_of_get? (Assoc.get?_insert_self segment
      (.node (mergeFields patch rest (slotFields (Assoc.get? segment fields)))) fields)
    simp only [Value.depth] at hvalue
    simp only [mergeFields, List.length_cons]
    omega

/-! ### Writing a patch

A patch is merged and then stamped. The stamp replaces the root field `timestamp`, and with it all
that a path beginning with this name has built. -/

namespace Record

theorem stamp_merged_of_reserved (r : Record) {path : Text} (patch : Params) (moment : Moment)
    (h : (mergeSegments path).head? = some timestampName) :
    (r.merged path patch).stamp moment = r.stamp moment := by
  obtain ⟨rest, hsegments⟩ := List.head?_eq_some_iff.1 h
  refine Record.ext (Assoc.ext_of_get? ((r.merged path patch).stamp moment).canonical.sorted
    (r.stamp moment).canonical.sorted fun name => ?_)
  simp only [stamp, insertLeaf, merged, hsegments, mergeFields, Assoc.get?_insert]
  split <;> rfl

theorem depth_merged_le (r : Record) (path : Text) (patch : Params) :
    (r.merged path patch).depth ≤ max r.depth ((mergeSegments path).length + 1) := by
  have h := membersDepth_mergeFields_le patch.entries (mergeSegments path) r.fields
  simp only [depth, merged]
  omega

theorem length_lt_depth_stamp_merged (r : Record) {path : Text} (patch : Params) (moment : Moment)
    (h : (mergeSegments path).head? ≠ some timestampName) :
    (mergeSegments path).length < ((r.merged path patch).stamp moment).depth := by
  cases hsegments : mergeSegments path with
  | nil => exact Nat.succ_pos _
  | cons segment rest =>
    have hne : segment ≠ timestampName := by simpa [hsegments] using h
    have hvalue : Assoc.get? segment ((r.merged path patch).stamp moment).fields =
        some (.node (mergeFields patch.entries rest
          (slotFields (Assoc.get? segment r.fields)))) := by
      simp [stamp, insertLeaf, merged, hsegments, mergeFields, Assoc.get?_insert, hne]
    have hdepth := depth_le_of_get? hvalue
    have hinner := length_le_membersDepth_mergeFields patch.entries rest
      (slotFields (Assoc.get? segment r.fields))
    simp only [Value.depth] at hdepth
    simp only [depth, List.length_cons]
    omega

/-- A patch keeps a record within a depth exactly if its path is shorter than the depth, or begins
with the name that the stamp replaces. -/
theorem depth_stamp_merged_le_iff {r : Record} {n : Nat} (hr : r.depth ≤ n + 1) (path : Text)
    (patch : Params) (moment : Moment) :
    ((r.merged path patch).stamp moment).depth ≤ n + 1 ↔
      (mergeSegments path).length ≤ n ∨ (mergeSegments path).head? = some timestampName := by
  by_cases hhead : (mergeSegments path).head? = some timestampName
  · rw [stamp_merged_of_reserved r patch moment hhead]
    exact ⟨fun _ => .inr hhead, fun _ => Nat.le_trans (r.depth_insertLeaf_le _ _) hr⟩
  · have hlower := r.length_lt_depth_stamp_merged patch moment hhead
    have hmerged := r.depth_merged_le path patch
    have hstamp : ((r.merged path patch).stamp moment).depth ≤ (r.merged path patch).depth :=
      (r.merged path patch).depth_insertLeaf_le _ _
    refine ⟨fun h => .inl (by omega), fun h => ?_⟩
    have hlength := h.resolve_right hhead
    omega

theorem depth_stamp_ofParams (params : Params) (moment : Moment) :
    ((ofParams params).stamp moment).depth ≤ 1 := by
  rw [← depth_ofParams params]
  exact (ofParams params).depth_insertLeaf_le _ _

end Record

end DeadDrop
