import DeadDrop.Assoc
import DeadDrop.Time.Moment

/-!
# Records

A record is a tree of named fields: a leaf holds text, a node holds a mapping of names to values.
Every mapping keeps its names in increasing order, at every depth; a record carries the proof, so
two records with the same content are equal.

The root field `timestamp` is reserved: every write stamps it.
-/

namespace DeadDrop

inductive Value where
  | leaf (text : Text)
  | node (fields : List (Text × Value))

namespace Value

inductive Canonical : Value → Prop where
  | leaf (text : Text) : Canonical (.leaf text)
  | node {fields : List (Text × Value)} (sorted : Assoc.Sorted fields)
      (nested : ∀ entry ∈ fields, entry.2.Canonical) : Canonical (.node fields)

theorem Canonical.sorted {fields : List (Text × Value)} (h : Canonical (.node fields)) :
    Assoc.Sorted fields := by
  cases h with
  | node sorted _ => exact sorted

theorem Canonical.nested {fields : List (Text × Value)} (h : Canonical (.node fields)) :
    ∀ entry ∈ fields, entry.2.Canonical := by
  cases h with
  | node _ nested => exact nested

theorem canonical_nil : Canonical (.node []) := .node List.Pairwise.nil (by simp)

theorem Canonical.insert {fields : List (Text × Value)} (h : Canonical (.node fields))
    (name : Text) {value : Value} (hv : value.Canonical) :
    Canonical (.node (Assoc.insert name value fields)) := by
  refine .node (Assoc.sorted_insert name value h.sorted) fun entry he => ?_
  rcases Assoc.mem_insert he with rfl | he
  · exact hv
  · exact h.nested entry he

theorem Canonical.get? {fields : List (Text × Value)} (h : Canonical (.node fields))
    {name : Text} {value : Value} (hv : Assoc.get? name fields = some value) :
    value.Canonical :=
  h.nested _ (Assoc.mem_of_get?_eq_some hv)

end Value

/-- A flat mapping of names to texts, as a client sends it. -/
abbrev Params := Table Text Text

@[ext]
structure Record where
  fields : List (Text × Value)
  canonical : Value.Canonical (.node fields)

namespace Record

def empty : Record := ⟨[], Value.canonical_nil⟩

instance : Inhabited Record := ⟨empty⟩

def isEmpty (r : Record) : Bool := r.fields.isEmpty

def keys (r : Record) : List Text := r.fields.map Prod.fst

def get? (r : Record) (name : Text) : Option Value := Assoc.get? name r.fields

def insertLeaf (r : Record) (name text : Text) : Record :=
  ⟨Assoc.insert name (.leaf text) r.fields, r.canonical.insert name (.leaf text)⟩

/-- Sets a root field to a node with the fields of another record. -/
def insertNode (r : Record) (name : Text) (inner : Record) : Record :=
  ⟨Assoc.insert name (.node inner.fields) r.fields, r.canonical.insert name inner.canonical⟩

/-- The record whose root fields are exactly the given leaves. -/
def ofParams (params : Params) : Record where
  fields := params.entries.map fun entry => (entry.1, .leaf entry.2)
  canonical := by
    refine .node (List.Pairwise.map _ (fun _ _ h => h) params.sorted) fun entry he => ?_
    obtain ⟨p, _, rfl⟩ := List.mem_map.1 he
    exact .leaf p.2

/-- The name of the reserved root field. -/
def timestampName : Text := "timestamp".toList

/-- Sets the reserved root field to a moment, to the second. -/
def stamp (r : Record) (moment : Moment) : Record := r.insertLeaf timestampName moment.toSecondsText

/-- The moment in the reserved root field, if it is a leaf that reads as one. -/
def timestamp? (r : Record) : Option Moment :=
  match r.get? timestampName with
  | some (.leaf text) => Moment.ofText? text
  | _ => none

end Record

end DeadDrop
