import DeadDrop.Record.Field

/-!
# The leaves of records

A property that every leaf has, at every depth. Setting a field, merging a patch and stamping build a
record out of old leaves and new ones and change none, so the property is kept if the new leaves have
it; and a field that is looked up has the leaves of its record.
-/

namespace DeadDrop

namespace Value

inductive AllLeaves (p : Text → Prop) : Value → Prop where
  | leaf {text : Text} (holds : p text) : AllLeaves p (.leaf text)
  | node {fields : List (Text × Value)} (nested : ∀ entry ∈ fields, entry.2.AllLeaves p) :
    AllLeaves p (.node fields)

variable {p : Text → Prop} {fields : List (Text × Value)}

theorem AllLeaves.text {text : Text} (h : AllLeaves p (.leaf text)) : p text := by
  cases h with
  | leaf holds => exact holds

theorem AllLeaves.nested (h : AllLeaves p (.node fields)) :
    ∀ entry ∈ fields, entry.2.AllLeaves p := by
  cases h with
  | node nested => exact nested

theorem allLeaves_nil : AllLeaves p (.node []) := .node (by simp)

theorem AllLeaves.insert (h : AllLeaves p (.node fields)) (name : Text) {value : Value}
    (hvalue : value.AllLeaves p) : AllLeaves p (.node (Assoc.insert name value fields)) := by
  refine .node fun entry hentry => ?_
  rcases Assoc.mem_insert hentry with rfl | hold
  · exact hvalue
  · exact h.nested entry hold

theorem AllLeaves.get? (h : AllLeaves p (.node fields)) {name : Text} {value : Value}
    (hvalue : Assoc.get? name fields = some value) : value.AllLeaves p :=
  h.nested _ (Assoc.mem_of_get?_eq_some hvalue)

theorem AllLeaves.unionLeaves {patch : List (Text × Text)} (hpatch : ∀ entry ∈ patch, p entry.2)
    (h : AllLeaves p (.node fields)) : AllLeaves p (.node (unionLeaves fields patch)) := by
  induction patch generalizing fields with
  | nil => exact h
  | cons entry rest ih =>
    obtain ⟨hfirst, hrest⟩ := List.forall_mem_cons.1 hpatch
    exact ih hrest (h.insert entry.1 (.leaf hfirst))

theorem AllLeaves.slotFields (h : AllLeaves p (.node fields)) (segment : Text) :
    AllLeaves p (.node (slotFields (Assoc.get? segment fields))) := by
  match hslot : Assoc.get? segment fields with
  | none => exact allLeaves_nil
  | some (.leaf _) => exact allLeaves_nil
  | some (.node inner) => exact h.get? hslot

/-- On the way down the mappings are those of the record, or new and empty. -/
theorem AllLeaves.mergeFields {patch : List (Text × Text)} (hpatch : ∀ entry ∈ patch, p entry.2)
    (segments : List Text) (h : AllLeaves p (.node fields)) :
    AllLeaves p (.node (mergeFields patch segments fields)) := by
  induction segments generalizing fields with
  | nil => exact h.unionLeaves hpatch
  | cons segment rest ih => exact h.insert segment (ih (h.slotFields segment))

theorem AllLeaves.lookup (segments : List Text) {value : Value} (h : AllLeaves p (.node fields))
    (hvalue : lookupFields segments fields = .ok value) : value.AllLeaves p := by
  induction segments generalizing fields with
  | nil => exact Except.ok.inj hvalue ▸ h
  | cons segment rest ih =>
    unfold lookupFields at hvalue
    cases hslot : Assoc.get? segment fields with
    | none => simp [hslot] at hvalue
    | some slot =>
      have hfound := h.get? hslot
      rw [hslot] at hvalue
      cases slot with
      | node inner => exact ih hfound hvalue
      | leaf text =>
        simp only at hvalue
        split at hvalue
        · exact Except.ok.inj hvalue ▸ hfound
        · cases hvalue

end Value

namespace Record

/-- Every leaf of the record has a property. -/
def AllLeaves (p : Text → Prop) (r : Record) : Prop := (Value.node r.fields).AllLeaves p

variable {p : Text → Prop} {params : Params}

theorem allLeaves_empty : Record.empty.AllLeaves p := Value.allLeaves_nil

theorem allLeaves_ofParams (h : ∀ entry ∈ params.entries, p entry.2) :
    (ofParams params).AllLeaves p := by
  refine .node fun entry hentry => ?_
  obtain ⟨param, hparam, rfl⟩ := List.mem_map.1 hentry
  exact .leaf (h param hparam)

theorem AllLeaves.merged {r : Record} (h : r.AllLeaves p) (path : Text)
    (hpatch : ∀ entry ∈ params.entries, p entry.2) : (r.merged path params).AllLeaves p :=
  Value.AllLeaves.mergeFields hpatch (mergeSegments path) h

theorem AllLeaves.stamp {r : Record} (h : r.AllLeaves p) {moment : Moment}
    (hmoment : p moment.toSecondsText) : (r.stamp moment).AllLeaves p :=
  Value.AllLeaves.insert h timestampName (.leaf hmoment)

theorem AllLeaves.field {r : Record} (h : r.AllLeaves p) {path : Text} {value : Value}
    (hvalue : r.field path = .ok value) : value.AllLeaves p :=
  Value.AllLeaves.lookup (pathSegments path) h hvalue

end Record

end DeadDrop
