import DeadDrop.Proofs.Record.Merge

/-!
# What a path finds

Names lead from a value inwards, one for each mapping that is gone through (`Value.Reaches`). Seen from
the root of a record, there are three ways for a list of names: it leads to a value, or it goes on
where a leaf stands, or it names what a mapping on the way does not have. These are the three outcomes
of a look-up (`Record.field_classified`), and no two of them come together, because the names of a
mapping are in increasing order, so that a name leads to one value at most.

What has been reached can be looked into on its own: behind a mapping, the look-up is that of the names
that are left in the record with its fields.
-/

namespace DeadDrop

/-! ### Ways through a value -/

namespace Value

/-- The names lead from the first value to the second one. -/
inductive Reaches : Value → List Text → Value → Prop where
  | here (value : Value) : Reaches value [] value
  | inside {fields : List (Text × Value)} {name : Text} {names : List Text} {inner value : Value}
    (entry : (name, inner) ∈ fields) (rest : Reaches inner names value) :
    Reaches (.node fields) (name :: names) value

/-- Some of the names lead to a leaf, and there are more of them. -/
def MeetsLeaf (root : Value) (names : List Text) : Prop :=
  ∃ front rest text, names = front ++ rest ∧ front ≠ [] ∧ rest ≠ [] ∧
    root.Reaches front (.leaf text)

/-- Some of the names lead to a mapping, and it has no field of the next name. -/
def MeetsGap (root : Value) (names : List Text) : Prop :=
  ∃ front name rest fields, names = front ++ name :: rest ∧ root.Reaches front (.node fields) ∧
    ∀ value, (name, value) ∉ fields

variable {fields : List (Text × Value)} {name : Text} {names : List Text} {root value : Value}

theorem reaches_nil_iff : root.Reaches [] value ↔ value = root := by
  constructor
  · intro h
    cases h with
    | here => rfl
  · rintro rfl
    exact .here value

theorem reaches_leaf_iff {text : Text} :
    (Value.leaf text).Reaches names value ↔ names = [] ∧ value = .leaf text := by
  constructor
  · intro h
    cases h with
    | here => exact ⟨rfl, rfl⟩
  · rintro ⟨rfl, rfl⟩
    exact .here _

/-- There is one field of a name, the one that is found. -/
theorem reaches_cons_iff (h : Assoc.Sorted fields) :
    (Value.node fields).Reaches (name :: names) value ↔
      ∃ inner, Assoc.get? name fields = some inner ∧ inner.Reaches names value := by
  simp only [Assoc.get?_eq_some_iff h]
  constructor
  · intro hreaches
    cases hreaches with
    | inside entry rest => exact ⟨_, entry, rest⟩
  · rintro ⟨inner, entry, rest⟩
    exact .inside entry rest

theorem Reaches.canonical (h : root.Reaches names value) (hroot : root.Canonical) :
    value.Canonical := by
  induction h with
  | here => exact hroot
  | inside entry rest ih => exact ih (hroot.nested _ entry)

theorem MeetsGap.cons {inner : Value} (entry : (name, inner) ∈ fields)
    (h : inner.MeetsGap names) : (Value.node fields).MeetsGap (name :: names) := by
  obtain ⟨front, next, rest, found, rfl, hfront, habsent⟩ := h
  exact ⟨name :: front, next, rest, found, rfl, .inside entry hfront, habsent⟩

end Value

/-! ### The outcomes of a look-up -/

section Outcomes

variable {fields : List (Text × Value)}

theorem lookupFields_eq_ok_iff (hfields : Value.Canonical (.node fields)) (names : List Text)
    (value : Value) :
    lookupFields names fields = .ok value ↔ (Value.node fields).Reaches names value := by
  induction names generalizing fields with
  | nil => rw [lookupFields, Value.reaches_nil_iff, Except.ok.injEq, eq_comm]
  | cons name names ih =>
    rw [Value.reaches_cons_iff hfields.sorted, lookupFields]
    cases hslot : Assoc.get? name fields with
    | none => simp
    | some slot =>
      cases slot with
      | node inner => simpa using ih (hfields.get? hslot)
      | leaf text => cases names <;> simp [Value.reaches_leaf_iff, eq_comm]

/-- A leaf is never reached without a name, so what stops a look-up is behind one. -/
theorem lookupFields_eq_throughLeaf_iff_meetsLeaf (hfields : Value.Canonical (.node fields))
    (names : List Text) :
    lookupFields names fields = .error .throughLeaf ↔ (Value.node fields).MeetsLeaf names := by
  rw [lookupFields_eq_throughLeaf_iff]
  constructor
  · rintro ⟨front, text, rest, hrest, hnames, hleaf⟩
    have hfront : front ≠ [] := by
      rintro rfl
      simp [lookupFields] at hleaf
    exact ⟨front, rest, text, hnames, hfront, hrest, (lookupFields_eq_ok_iff hfields ..).1 hleaf⟩
  · rintro ⟨front, rest, text, hnames, -, hrest, hleaf⟩
    exact ⟨front, text, rest, hrest, hnames, (lookupFields_eq_ok_iff hfields ..).2 hleaf⟩

/-- Behind a mapping, a look-up is one in this mapping. -/
theorem lookupFields_append_of_reaches (hfields : Value.Canonical (.node fields))
    {front : List Text} {inner : List (Text × Value)}
    (h : (Value.node fields).Reaches front (.node inner)) (back : List Text) :
    lookupFields (front ++ back) fields = lookupFields back inner := by
  induction front generalizing fields with
  | nil =>
    obtain rfl := Value.node.inj (Value.reaches_nil_iff.1 h)
    rfl
  | cons name front ih =>
    obtain ⟨slot, hslot, hrest⟩ := (Value.reaches_cons_iff hfields.sorted).1 h
    rw [List.cons_append, lookupFields, hslot]
    cases slot with
    | node between => exact ih (hfields.get? hslot) hrest
    | leaf text => simp [Value.reaches_leaf_iff] at hrest

theorem lookupFields_eq_missing_iff (hfields : Value.Canonical (.node fields))
    (names : List Text) :
    lookupFields names fields = .error .missing ↔ (Value.node fields).MeetsGap names := by
  constructor
  · intro h
    induction names generalizing fields with
    | nil => simp [lookupFields] at h
    | cons name names ih =>
      rw [lookupFields] at h
      cases hslot : Assoc.get? name fields with
      | none =>
        have habsent : ∀ value, (name, value) ∉ fields := fun value hmem => by
          simp [(Assoc.get?_eq_some_iff hfields.sorted).2 hmem] at hslot
        exact ⟨[], name, names, fields, rfl, .here _, habsent⟩
      | some slot =>
        rw [hslot] at h
        cases slot with
        | node inner => exact (ih (hfields.get? hslot) h).cons (Assoc.mem_of_get?_eq_some hslot)
        | leaf text => cases names <;> simp at h
  · rintro ⟨front, name, rest, inner, rfl, hfront, habsent⟩
    have hslot : Assoc.get? name inner = none :=
      Assoc.get?_eq_none_of_forall fun entry hmem hname => habsent entry.2 (hname ▸ hmem)
    rw [lookupFields_append_of_reaches hfields hfront, lookupFields, hslot]

end Outcomes

/-- One of three statements holds, and the other two do not. -/
def ExactlyOne (a b c : Prop) : Prop := a ∧ ¬ b ∧ ¬ c ∨ ¬ a ∧ b ∧ ¬ c ∨ ¬ a ∧ ¬ b ∧ c

namespace Record

def root (r : Record) : Value := .node r.fields

/-- **What a path finds.** A look-up ends with the value that the segments lead to, or says that they
go on behind a leaf, or that they name what is not there, and exactly one of these is the case. Behind
a mapping it is the look-up of the segments that are left. -/
theorem field_classified (r : Record) (path : Text) :
    (∀ value, r.field path = .ok value ↔ r.root.Reaches (pathSegments path) value) ∧
    (r.field path = .error .throughLeaf ↔ r.root.MeetsLeaf (pathSegments path)) ∧
    (r.field path = .error .missing ↔ r.root.MeetsGap (pathSegments path)) ∧
    ExactlyOne (∃ value, r.root.Reaches (pathSegments path) value)
      (r.root.MeetsLeaf (pathSegments path)) (r.root.MeetsGap (pathSegments path)) ∧
    ∀ front back fields, pathSegments path = front ++ back → back ≠ [] →
      r.root.Reaches front (.node fields) →
      ∃ inner : Record, inner.fields = fields ∧
        r.field path = inner.field (Text.join ['/'] back) := by
  have hok := lookupFields_eq_ok_iff r.canonical (pathSegments path)
  have hleaf := lookupFields_eq_throughLeaf_iff_meetsLeaf r.canonical (pathSegments path)
  have hgap := lookupFields_eq_missing_iff r.canonical (pathSegments path)
  refine ⟨hok, hleaf, hgap, ?_, ?_⟩
  · simp only [ExactlyOne, root, ← hok, ← hleaf, ← hgap]
    cases lookupFields (pathSegments path) r.fields with
    | ok value => simp
    | error failure => cases failure <;> simp
  · intro front back fields hpath hback hfront
    have hpieces : ∀ piece ∈ back, '/' ∉ piece := by
      intro piece hpiece
      have hmem : piece ∈ pathSegments path := hpath ▸ List.mem_append_right front hpiece
      exact Text.not_mem_of_mem_splitOn hmem
    have hsegments : pathSegments (Text.join ['/'] back) = back := Text.splitOn_join hback hpieces
    refine ⟨⟨fields, hfront.canonical r.canonical⟩, rfl, ?_⟩
    rw [field, field, hsegments, hpath]
    exact lookupFields_append_of_reaches r.canonical hfront back

/-- A leaf, and a mapping with a leaf and an empty mapping under the empty name. -/
def sampleTree : Record :=
  (empty.insertLeaf ['a'] ['x']).insertNode ['n'] ((empty.insertLeaf ['m'] ['y']).insertNode [] empty)

theorem field_classified_sample :
    let inside : List (Text × Value) := [([], .node []), (['m'], .leaf ['y'])]
    (pathSegments "n//m".toList = [['n']] ++ [[], ['m']] ∧
      sampleTree.root.Reaches [['n']] (.node inside)) ∧
      (∃ inner : Record, inner.fields = inside ∧
        sampleTree.field "n//m".toList = inner.field "/m".toList) ∧
      sampleTree.root.MeetsGap [['n'], [], ['m']] ∧ sampleTree.root.MeetsLeaf [['a'], []] := by
  intro inside
  have hinside : sampleTree.root.Reaches [['n']] (.node inside) :=
    .inside (.tail _ (.head _)) (.here _)
  obtain ⟨-, -, hgap, -, hbehind⟩ := field_classified sampleTree "n//m".toList
  obtain ⟨-, hleaf, -⟩ := field_classified sampleTree "a/".toList
  exact ⟨⟨rfl, hinside⟩, hbehind [['n']] [[], ['m']] inside rfl (List.cons_ne_nil _ _) hinside,
    hgap.1 rfl, hleaf.1 rfl⟩

end Record

end DeadDrop
