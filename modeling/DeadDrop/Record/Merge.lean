import DeadDrop.Record.Basic

/-!
# Merging at a path

A patch is a flat mapping that is merged into the mapping at a path. On the way down, a missing
segment is made and a leaf in the way gives place to a mapping; at the end the names of the patch
are set, and all other names keep what they had.
-/

namespace DeadDrop

/-- The segments of a path: what stands between its slashes. -/
def pathSegments (path : Text) : List Text := path.splitOn '/'

/-- The segments of a path to merge at, where the empty path means the root. -/
def mergeSegments (path : Text) : List Text := if path.isEmpty then [] else pathSegments path

def unionLeaves (fields : List (Text × Value)) (patch : List (Text × Text)) :
    List (Text × Value) :=
  patch.foldl (fun fields entry => Assoc.insert entry.1 (.leaf entry.2) fields) fields

/-- The fields of the mapping in a slot: none if the slot is absent or holds a leaf. -/
def slotFields : Option Value → List (Text × Value)
  | some (.node fields) => fields
  | _ => []

/-- Merges a patch into the mapping that the segments lead to. -/
def mergeFields (patch : List (Text × Text)) : List Text → List (Text × Value) →
    List (Text × Value)
  | [], fields => unionLeaves fields patch
  | segment :: rest, fields =>
    let inner := mergeFields patch rest (slotFields (Assoc.get? segment fields))
    Assoc.insert segment (.node inner) fields

theorem canonical_unionLeaves {fields : List (Text × Value)}
    (h : Value.Canonical (.node fields)) (patch : List (Text × Text)) :
    Value.Canonical (.node (unionLeaves fields patch)) := by
  induction patch generalizing fields with
  | nil => exact h
  | cons entry rest ih => exact ih (h.insert entry.1 (.leaf entry.2))

theorem canonical_slotFields {fields : List (Text × Value)} (h : Value.Canonical (.node fields))
    (segment : Text) : Value.Canonical (.node (slotFields (Assoc.get? segment fields))) := by
  match hslot : Assoc.get? segment fields with
  | none => exact Value.canonical_nil
  | some (.leaf _) => exact Value.canonical_nil
  | some (.node inner) => exact h.get? hslot

theorem canonical_mergeFields (patch : List (Text × Text)) (segments : List Text)
    {fields : List (Text × Value)} (h : Value.Canonical (.node fields)) :
    Value.Canonical (.node (mergeFields patch segments fields)) := by
  induction segments generalizing fields with
  | nil => exact canonical_unionLeaves h patch
  | cons segment rest ih => exact h.insert segment (ih (canonical_slotFields h segment))

/-- The record with a patch merged into the mapping at a path. -/
def Record.merged (r : Record) (path : Text) (patch : Params) : Record :=
  ⟨mergeFields patch.entries (mergeSegments path) r.fields,
    canonical_mergeFields patch.entries (mergeSegments path) r.canonical⟩

end DeadDrop
