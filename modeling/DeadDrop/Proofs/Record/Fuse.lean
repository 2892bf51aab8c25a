import DeadDrop.Proofs.Record.Merge

/-!
# Merging again at one path

The second of two merges at one path walks fields that the first one has reshaped. There is a mapping
in every slot on the way by now, found or made, so nothing more is made or replaced, and both merges do
their work inside of the same mapping (`mergeFields_mergeFields_cons`). In that mapping the names of the
second patch are set over those of the first one, and a single merge of both patches leaves the same
(`unionLeaves_union`).
-/

namespace DeadDrop

variable {a b : Params} {fields : List (Text × Value)}

theorem unionLeaves_union (hfields : Value.Canonical (.node fields)) :
    unionLeaves (unionLeaves fields a.entries) b.entries =
      unionLeaves fields (a.union b).entries := by
  apply Assoc.ext_of_get?
  · exact (canonical_unionLeaves (canonical_unionLeaves hfields _) _).sorted
  · exact (canonical_unionLeaves hfields _).sorted
  · intro name
    have hunion : Assoc.get? name (a.union b).entries =
        (Assoc.get? name b.entries).or (Assoc.get? name a.entries) := a.get?_union b name
    rw [get?_unionLeaves b.sorted, get?_unionLeaves a.sorted, get?_unionLeaves (a.union b).sorted,
      hunion, Option.map_or, Option.or_assoc]

theorem mergeFields_union (hfields : Value.Canonical (.node fields)) (segments : List Text) :
    mergeFields b.entries segments (mergeFields a.entries segments fields) =
      mergeFields (a.union b).entries segments fields := by
  induction segments generalizing fields with
  | nil => exact unionLeaves_union hfields
  | cons segment rest ih =>
    rw [mergeFields_mergeFields_cons, ih (canonical_slotFields hfields segment)]
    rfl

namespace Record

theorem merged_merged (r : Record) (path : Text) (a b : Params) :
    (r.merged path a).merged path b = r.merged path (a.union b) :=
  Record.ext (mergeFields_union r.canonical (mergeSegments path))

theorem foldl_merged (r : Record) (path : Text) (a : Params) (patches : List Params) :
    patches.foldl (fun merged patch => merged.merged path patch) (r.merged path a) =
      r.merged path (patches.foldl Table.union a) := by
  induction patches generalizing a with
  | nil => rfl
  | cons b patches ih => rw [List.foldl_cons, merged_merged, ih, List.foldl_cons]

/-- **Successive merges at one path are one merge.** Its patch has the names of all their patches, and
of each name the text in the last patch that has it. So a merge that is made once more changes
nothing. -/
theorem merges_fuse (r : Record) (path : Text) (a b : Params) :
    (r.merged path a).merged path b = r.merged path (a.union b) ∧
      (∀ name, (a.union b).get? name = (b.get? name).or (a.get? name)) ∧
      (r.merged path a).merged path a = r.merged path a ∧
      ∀ patches : List Params,
        patches.foldl (fun merged patch => merged.merged path patch) (r.merged path a) =
          r.merged path (patches.foldl Table.union a) := by
  refine ⟨r.merged_merged path a b, a.get?_union b, ?_, r.foldl_merged path a⟩
  rw [merged_merged, Table.union_self]

/-- The first merge takes a leaf out of the way, the second one finds a mapping there. -/
example :
    let r := empty.insertLeaf "a".toList "v".toList
    let first : Params := (Table.empty.insert "x".toList "1".toList).insert "y".toList "2".toList
    let second : Params := Table.empty.insert "y".toList "3".toList
    let merged := (r.merged "a/b".toList first).merged "a/b".toList second
    merged.field "a/b/x".toList = .ok (.leaf "1".toList) ∧
      merged.field "a/b/y".toList = .ok (.leaf "3".toList) :=
  ⟨rfl, rfl⟩

end Record

end DeadDrop
