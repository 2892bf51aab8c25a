import DeadDrop.Proofs.Table
import DeadDrop.Proofs.Text.Split
import DeadDrop.Record.Field

/-!
# The fields that a write sets

A merge leads a look-up to the mapping that it has merged into: below the segments of its path, a
field is what the patch makes of the fields that were there (`lookupFields_mergeFields`). The stamp
then replaces one field of the root, so it is seen by the paths that begin with its name and by no
other ones.

An upload is a merge of all its fields into the root of the empty record.
-/

namespace DeadDrop

/-! ### Paths -/

/-- The path of a field in the mapping that a path leads to. -/
def fieldPath (path name : Text) : Text := (if path.isEmpty then [] else path ++ ['/']) ++ name

theorem mergeSegments_eq_nil_iff (path : Text) : mergeSegments path = [] ↔ path = [] := by
  unfold mergeSegments
  cases path with
  | nil => exact iff_of_true rfl rfl
  | cons c path => exact iff_of_false (Text.splitOn_ne_nil _) (List.cons_ne_nil _ _)

theorem pathSegments_fieldPath (path : Text) {name : Text} (h : '/' ∉ name) :
    pathSegments (fieldPath path name) = mergeSegments path ++ [name] := by
  unfold pathSegments fieldPath mergeSegments
  cases path with
  | nil => exact Text.splitOn_of_not_mem h
  | cons c path =>
    simp only [List.isEmpty_cons, Bool.false_eq_true, if_false]
    rw [List.append_assoc, List.singleton_append, Text.splitOn_append_cons,
      Text.splitOn_of_not_mem h, pathSegments]

/-! ### Merges -/

/-- Of the fields after a merge, those of the patch are its leaves. -/
theorem get?_unionLeaves {patch : List (Text × Text)} (hpatch : Assoc.Sorted patch) (name : Text)
    (fields : List (Text × Value)) :
    Assoc.get? name (unionLeaves fields patch) =
      ((Assoc.get? name patch).map Value.leaf).or (Assoc.get? name fields) :=
  Assoc.get?_foldl_insert Value.leaf hpatch name fields

/-- The fields of the mapping that the segments lead to, as a merge finds them. -/
def fieldsAt : List Text → List (Text × Value) → List (Text × Value)
  | [], fields => fields
  | segment :: rest, fields => fieldsAt rest (slotFields (Assoc.get? segment fields))

/-- As far as a look-up goes the way of a merge, it goes down mappings that the merge has found or
made. -/
theorem lookupFields_mergeFields_append (patch : List (Text × Text))
    (shared segments names : List Text) (fields : List (Text × Value)) :
    lookupFields (shared ++ names) (mergeFields patch (shared ++ segments) fields) =
      lookupFields names (mergeFields patch segments (fieldsAt shared fields)) := by
  induction shared generalizing fields with
  | nil => rfl
  | cons segment shared ih =>
    rw [List.cons_append, List.cons_append, mergeFields, lookupFields, Assoc.get?_insert_self]
    exact ih _

theorem lookupFields_mergeFields (patch : List (Text × Text)) (segments rest : List Text)
    (fields : List (Text × Value)) :
    lookupFields (segments ++ rest) (mergeFields patch segments fields) =
      lookupFields rest (unionLeaves (fieldsAt segments fields) patch) := by
  have h := lookupFields_mergeFields_append patch segments [] rest fields
  rwa [List.append_nil] at h

theorem lookupFields_of_leaf {name text : Text} {fields : List (Text × Value)}
    (h : Assoc.get? name fields = some (.leaf text)) :
    lookupFields [name] fields = .ok (.leaf text) := by
  rw [lookupFields, h]
  rfl

/-- To set a field is to be seen by the paths that begin with it only. -/
theorem lookupFields_insert_of_ne {first name : Text} (h : first ≠ name) (rest : List Text)
    (value : Value) (fields : List (Text × Value)) :
    lookupFields (first :: rest) (Assoc.insert name value fields) =
      lookupFields (first :: rest) fields := by
  rw [lookupFields, lookupFields, Assoc.get?_insert_of_ne h]

namespace Record

theorem get?_ofParams (params : Params) (name : Text) :
    (ofParams params).get? name = (params.get? name).map Value.leaf := by
  have hmap : ∀ entries : List (Text × Text),
      Assoc.get? name (entries.map fun entry => (entry.1, Value.leaf entry.2)) =
        (Assoc.get? name entries).map Value.leaf := by
    intro entries
    induction entries with
    | nil => rfl
    | cons entry rest ih =>
      rw [List.map_cons, Assoc.get?, Assoc.get?, ih]
      split <;> rfl
  exact hmap params.entries

/-- A stamp is one more of the given leaves. -/
theorem stamp_ofParams (params : Params) (moment : Moment) :
    (ofParams params).stamp moment =
      ofParams (params.insert timestampName moment.toSecondsText) :=
  Record.ext (Assoc.insert_map Value.leaf _ _ params.entries)

theorem ofParams_eq_merged (params : Params) : ofParams params = empty.merged [] params := by
  refine Record.ext (Assoc.ext_of_get? (ofParams params).canonical.sorted
    (empty.merged [] params).canonical.sorted fun name => ?_)
  have hunion := get?_unionLeaves params.sorted name []
  rw [Assoc.get?, Option.or_none] at hunion
  exact (get?_ofParams params name).trans hunion.symm

/-- The text of a field that a write has set: the reserved field of the root holds the stamp,
whatever has been sent for it. -/
def writtenText (moment : Moment) (path name text : Text) : Text :=
  if path = [] ∧ name = timestampName then moment.toSecondsText else text

/-- A field that a write has set is found under its path, unless the path leads through the reserved
field. -/
theorem field_stamp_merged (r : Record) {path name text : Text} {params : Params} (moment : Moment)
    (hname : '/' ∉ name) (hfree : (mergeSegments path).head? ≠ some timestampName)
    (htext : params.get? name = some text) :
    ((r.merged path params).stamp moment).field (fieldPath path name) =
      .ok (.leaf (writtenText moment path name text)) := by
  have hunion : ∀ fields, Assoc.get? name (unionLeaves fields params.entries) =
      some (.leaf text) := by
    intro fields
    have hentry : Assoc.get? name params.entries = some text := htext
    rw [get?_unionLeaves params.sorted, hentry]
    rfl
  rw [field, pathSegments_fieldPath path hname]
  change lookupFields _ (Assoc.insert timestampName _ (mergeFields params.entries _ r.fields)) = _
  cases hsegments : mergeSegments path with
  | nil =>
    obtain rfl := (mergeSegments_eq_nil_iff path).1 hsegments
    apply lookupFields_of_leaf
    rw [Assoc.get?_insert, writtenText]
    by_cases hreserved : name = timestampName
    · rw [if_pos hreserved, if_pos ⟨rfl, hreserved⟩]
    · rw [if_neg hreserved, if_neg fun h => hreserved h.2]
      exact hunion r.fields
  | cons first rest =>
    have hne : first ≠ timestampName := by simpa [hsegments] using hfree
    have hpath : path ≠ [] := fun heq => by simp [heq, mergeSegments] at hsegments
    rw [writtenText, if_neg fun h => hpath h.1, List.cons_append, lookupFields_insert_of_ne hne,
      ← List.cons_append, lookupFields_mergeFields]
    exact lookupFields_of_leaf (hunion _)

end Record

end DeadDrop
