import DeadDrop.Record.Merge

/-!
# Fields by path

A path names a field by the names that lead to it, divided by slashes. Looking one up fails in two
ways: a name on the way is missing, or a leaf stands where the path goes on.
-/

namespace DeadDrop

inductive FieldError where
  | throughLeaf
  | missing
  deriving DecidableEq, Repr

def lookupFields : List Text → List (Text × Value) → Except FieldError Value
  | [], fields => .ok (.node fields)
  | segment :: rest, fields =>
    match Assoc.get? segment fields with
    | none => .error .missing
    | some (.node inner) => lookupFields rest inner
    | some (.leaf text) => if rest.isEmpty then .ok (.leaf text) else .error .throughLeaf

/-- The field at a path. A path has at least one segment, so the root is not a field. -/
def Record.field (r : Record) (path : Text) : Except FieldError Value :=
  lookupFields (pathSegments path) r.fields

end DeadDrop
