import DeadDrop.Proofs.Record.Field
import DeadDrop.Proofs.Table

/-!
# What a merge changes, and when two merges commute

Two lists of segments run together for a while and then part in one of four ways (`Fork`): both end,
one of them ends, or they go on with different segments. Two theorems follow the way of a merge, the
one with the names of a look-up beside it, the other with the way of a second merge.

As long as the ways run together, nothing is decided: a look-up goes down mappings that the merge has
found or made (`lookupFields_mergeFields_append`), and a second merge does its work inside of what the
first one has built (`mergeFields_comm_append`). So each proof goes to the mapping in which the ways
part (`fieldsAt`), and compares there what the two do to one name. What has been left behind shows in
one point: a leaf on the way has stopped every look-up behind it, and the merge has put a mapping in
its place (`lookupFields_append_of_stop`).
-/

namespace DeadDrop

/-! ### Two ways -/

section Fork

variable {α : Type}

/-- How two lists part behind what they share. -/
inductive Fork : List α → List α → Prop where
  | same (shared : List α) : Fork shared shared
  | before (shared : List α) (next : α) (rest : List α) : Fork shared (shared ++ next :: rest)
  | behind (shared : List α) (next : α) (rest : List α) : Fork (shared ++ next :: rest) shared
  | apart (shared : List α) {a b : α} (rest rest' : List α) (ne : a ≠ b) :
    Fork (shared ++ a :: rest) (shared ++ b :: rest')

theorem Fork.cons (a : α) {l m : List α} (h : Fork l m) : Fork (a :: l) (a :: m) := by
  cases h with
  | same => exact .same (a :: l)
  | before _ next rest => exact .before (a :: l) next rest
  | behind _ next rest => exact .behind (a :: m) next rest
  | apart shared rest rest' ne => exact .apart (a :: shared) rest rest' ne

theorem fork (l m : List α) : Fork l m := by
  induction l generalizing m with
  | nil =>
    cases m with
    | nil => exact .same []
    | cons b m => exact .before [] b m
  | cons a l ih =>
    cases m with
    | nil => exact .behind [] a l
    | cons b m =>
      by_cases h : a = b
      · rw [← h]
        exact (ih m).cons a
      · exact .apart [] l m h

theorem not_prefix_of_apart (shared : List α) {a b : α} (h : a ≠ b) (rest rest' : List α) :
    ¬ shared ++ a :: rest <+: shared ++ b :: rest' := by
  rw [List.prefix_append_right_inj, List.cons_prefix_cons]
  exact fun hprefix => h hprefix.1

/-- What is on both of two ways that go on differently is on the way they share. -/
theorem prefix_of_apart {shared : List α} {a b : α} (h : a ≠ b) {rest rest' l : List α}
    (hleft : l <+: shared ++ a :: rest) (hright : l <+: shared ++ b :: rest') : l <+: shared := by
  rcases List.prefix_or_prefix_of_prefix hleft (List.prefix_append shared (a :: rest)) with
    hshort | ⟨more, rfl⟩
  · exact hshort
  · rw [List.prefix_append_right_inj] at hleft hright
    cases more with
    | nil => rw [List.append_nil]
    | cons c more =>
      have ha : c = a := (List.cons_prefix_cons.1 hleft).1
      have hb : c = b := (List.cons_prefix_cons.1 hright).1
      exact absurd (ha.symm.trans hb) h

end Fork

/-! ### Look-ups that a leaf stops -/

/-- A leaf stands where `stop` leads to, and `names` goes on behind it. -/
def StopsAt (stop names : List Text) (fields : List (Text × Value)) : Prop :=
  ∃ text rest, rest ≠ [] ∧ names = stop ++ rest ∧ lookupFields stop fields = .ok (.leaf text)

variable {fields : List (Text × Value)}

theorem StopsAt.cons {stop names : List Text} {inner : List (Text × Value)} {segment : Text}
    (hslot : Assoc.get? segment fields = some (.node inner)) (h : StopsAt stop names inner) :
    StopsAt (segment :: stop) (segment :: names) fields := by
  obtain ⟨text, rest, hrest, rfl, hleaf⟩ := h
  refine ⟨text, rest, hrest, rfl, ?_⟩
  rw [lookupFields, hslot]
  exact hleaf

theorem stopsAt_of_leaf {segment text : Text} {names : List Text} (hnames : names ≠ [])
    (hslot : Assoc.get? segment fields = some (.leaf text)) :
    StopsAt [segment] (segment :: names) fields :=
  ⟨text, names, hnames, rfl, lookupFields_of_leaf hslot⟩

theorem StopsAt.lookupFields_eq {stop names : List Text} (h : StopsAt stop names fields) :
    lookupFields names fields = .error .throughLeaf := by
  obtain ⟨text, rest, hrest, rfl, hleaf⟩ := h
  induction stop generalizing fields with
  | nil => simp [lookupFields] at hleaf
  | cons segment stop ih =>
    rw [List.cons_append]
    rw [lookupFields] at hleaf ⊢
    cases hslot : Assoc.get? segment fields with
    | none => simp [hslot] at hleaf
    | some slot =>
      rw [hslot] at hleaf
      cases slot with
      | node inner => exact ih hleaf
      | leaf found =>
        have hbehind : (stop ++ rest).isEmpty = false := by simp [hrest]
        simp only [hbehind, Bool.false_eq_true, if_false]

/-- A path goes on behind a leaf exactly if there is a leaf that stops it. -/
theorem lookupFields_eq_throughLeaf_iff (names : List Text) :
    lookupFields names fields = .error .throughLeaf ↔ ∃ stop, StopsAt stop names fields := by
  refine ⟨fun h => ?_, fun ⟨_, hstop⟩ => hstop.lookupFields_eq⟩
  induction names generalizing fields with
  | nil => simp [lookupFields] at h
  | cons segment names ih =>
    rw [lookupFields] at h
    cases hslot : Assoc.get? segment fields with
    | none => simp [hslot] at h
    | some slot =>
      rw [hslot] at h
      cases slot with
      | node inner =>
        obtain ⟨stop, hstop⟩ := ih h
        exact ⟨segment :: stop, hstop.cons hslot⟩
      | leaf text =>
        have hnames : names ≠ [] := by
          rintro rfl
          simp at h
        exact ⟨[segment], stopsAt_of_leaf hnames hslot⟩

/-! ### The mapping at the end of a way -/

theorem fieldsAt_nil (segments : List Text) : fieldsAt segments [] = [] := by
  induction segments with
  | nil => rfl
  | cons segment segments ih => exact ih

theorem fieldsAt_of_leaf {stop : List Text} {text : Text} (more : List Text)
    (h : lookupFields stop fields = .ok (.leaf text)) : fieldsAt (stop ++ more) fields = [] := by
  induction stop generalizing fields with
  | nil => simp [lookupFields] at h
  | cons segment stop ih =>
    rw [lookupFields] at h
    rw [List.cons_append, fieldsAt]
    cases hslot : Assoc.get? segment fields with
    | none => simp [hslot] at h
    | some slot =>
      rw [hslot] at h
      cases slot with
      | node inner => exact ih h
      | leaf found => exact fieldsAt_nil (stop ++ more)

theorem canonical_fieldsAt (segments : List Text) (h : Value.Canonical (.node fields)) :
    Value.Canonical (.node (fieldsAt segments fields)) := by
  induction segments generalizing fields with
  | nil => exact h
  | cons segment segments ih => exact ih (canonical_slotFields h segment)

theorem lookupFields_nil {names : List Text} (h : names ≠ []) :
    lookupFields names [] = .error .missing := by
  cases names with
  | nil => exact absurd rfl h
  | cons segment names => rfl

/-- Behind a leaf there is nothing. -/
theorem lookupFields_append_of_stop {stop shared names rest : List Text} (hnames : names ≠ [])
    (hshared : stop <+: shared) (hstop : StopsAt stop rest fields) :
    lookupFields names (fieldsAt shared fields) = .error .missing := by
  obtain ⟨more, rfl⟩ := hshared
  obtain ⟨text, _, _, _, hleaf⟩ := hstop
  rw [fieldsAt_of_leaf more hleaf, lookupFields_nil hnames]

theorem lookupFields_append {shared names : List Text} (hnames : names ≠ [])
    (hfree : ∀ stop, stop <+: shared → ¬ StopsAt stop (shared ++ names) fields) :
    lookupFields (shared ++ names) fields = lookupFields names (fieldsAt shared fields) := by
  induction shared generalizing fields with
  | nil => rfl
  | cons segment shared ih =>
    rw [List.cons_append, lookupFields, fieldsAt]
    cases hslot : Assoc.get? segment fields with
    | none =>
      have habsent : lookupFields names (fieldsAt shared []) = .error .missing := by
        rw [fieldsAt_nil, lookupFields_nil hnames]
      exact habsent.symm
    | some slot =>
      cases slot with
      | node inner =>
        refine ih fun stop hshared hstop => ?_
        exact hfree (segment :: stop) (List.cons_prefix_cons.2 ⟨rfl, hshared⟩) (hstop.cons hslot)
      | leaf text =>
        have hbehind : shared ++ names ≠ [] := List.append_ne_nil_of_right_ne_nil shared hnames
        exact absurd (stopsAt_of_leaf hbehind hslot)
          (hfree [segment] (List.cons_prefix_cons.2 ⟨rfl, List.nil_prefix⟩))

/-! ### The fields after a merge -/

section Lookup

variable {patch : List (Text × Text)}

theorem lookupFields_unionLeaves (hpatch : Assoc.Sorted patch) {name text : Text}
    (h : Assoc.get? name patch = some text) (rest : List Text) (fields : List (Text × Value)) :
    lookupFields (name :: rest) (unionLeaves fields patch) =
      if rest.isEmpty then .ok (.leaf text) else .error .throughLeaf := by
  rw [lookupFields, get?_unionLeaves hpatch, h]
  rfl

theorem lookupFields_unionLeaves_of_absent (hpatch : Assoc.Sorted patch) {name : Text}
    (h : Assoc.get? name patch = none) (rest : List Text) (fields : List (Text × Value)) :
    lookupFields (name :: rest) (unionLeaves fields patch) = lookupFields (name :: rest) fields := by
  rw [lookupFields, lookupFields, get?_unionLeaves hpatch, h]
  rfl

end Lookup

/-- The names of a look-up neither end on the way of a merge nor begin with a field that it sets. -/
structure Spared (segments : List Text) (patch : Params) (names : List Text) : Prop where
  notOnTheWay : ¬ names <+: segments
  notSet : ∀ name text, patch.get? name = some text → ¬ segments ++ [name] <+: names

/-- A spared look-up leaves the way of the merge, and it finds what is where it leaves. -/
theorem Spared.found {segments names : List Text} {patch : Params}
    (h : Spared segments patch names) (fields : List (Text × Value)) :
    ∃ shared rest, rest ≠ [] ∧ names = shared ++ rest ∧
      (∀ stop, stop <+: shared ↔ stop <+: segments ∧ stop <+: names) ∧
      lookupFields names (mergeFields patch.entries segments fields) =
        lookupFields rest (fieldsAt shared fields) := by
  cases fork segments names with
  | same => exact absurd (List.prefix_refl _) h.notOnTheWay
  | behind _ next rest => exact absurd (List.prefix_append _ (next :: rest)) h.notOnTheWay
  | before _ next rest =>
    have habsent : Assoc.get? next patch.entries = none := by
      cases hnext : patch.get? next with
      | none => exact hnext
      | some text =>
        have hset : segments ++ [next] <+: segments ++ next :: rest := by
          rw [List.prefix_append_right_inj, List.cons_prefix_cons]
          exact ⟨rfl, List.nil_prefix⟩
        exact absurd hset (h.notSet next text hnext)
    refine ⟨segments, next :: rest, List.cons_ne_nil next rest, rfl, fun stop => ?_, ?_⟩
    · exact ⟨fun hstop => ⟨hstop, hstop.trans (List.prefix_append _ _)⟩, fun hstop => hstop.1⟩
    · rw [lookupFields_mergeFields]
      exact lookupFields_unionLeaves_of_absent patch.sorted habsent rest _
  | apart shared rest rest' hne =>
    refine ⟨shared, _, List.cons_ne_nil _ rest', rfl, fun stop => ⟨fun hstop => ?_, fun hstop => ?_⟩,
      ?_⟩
    · exact ⟨hstop.trans (List.prefix_append _ _), hstop.trans (List.prefix_append _ _)⟩
    · exact prefix_of_apart hne hstop.1 hstop.2
    · rw [lookupFields_mergeFields_append]
      exact lookupFields_insert_of_ne (Ne.symm hne) rest' _ _

namespace Record

/-- What a path finds in a record after a merge, for every path. -/
structure FieldAfterMerge (r : Record) (path : Text) (patch : Params) (sought : Text) : Prop where
  /-- The names of the patch are leaves. -/
  set : ∀ name text, patch.get? name = some text →
    pathSegments sought = mergeSegments path ++ [name] →
    (r.merged path patch).field sought = .ok (.leaf text)
  behindSet : ∀ name text rest, patch.get? name = some text → rest ≠ [] →
    pathSegments sought = mergeSegments path ++ name :: rest →
    (r.merged path patch).field sought = .error .throughLeaf
  onTheWay : pathSegments sought <+: mergeSegments path →
    ∃ fields, (r.merged path patch).field sought = .ok (.node fields)
  /-- A leaf on the way of the merge has given place to a mapping, in which the path finds
  nothing. -/
  freed : Spared (mergeSegments path) patch (pathSegments sought) →
    (∃ stop, stop <+: mergeSegments path ∧ StopsAt stop (pathSegments sought) r.fields) →
    r.field sought = .error .throughLeaf ∧
      (r.merged path patch).field sought = .error .missing
  kept : Spared (mergeSegments path) patch (pathSegments sought) →
    (¬ ∃ stop, stop <+: mergeSegments path ∧ StopsAt stop (pathSegments sought) r.fields) →
    (r.merged path patch).field sought = r.field sought

/-- **A merge sets the names of its patch, makes mappings of the way to them, and changes no other
field.** The one thing that another path can tell is a leaf on the way of the merge: it was stopped
there, and now it finds nothing. -/
theorem field_merged (r : Record) (path : Text) (patch : Params) (sought : Text) :
    r.FieldAfterMerge path patch sought := by
  have hmerged : (r.merged path patch).field sought =
      lookupFields (pathSegments sought) (mergeFields patch.entries (mergeSegments path) r.fields) :=
    rfl
  have hfield : r.field sought = lookupFields (pathSegments sought) r.fields := rfl
  constructor
  case set =>
    intro name text hname hsegments
    rw [hmerged, hsegments, lookupFields_mergeFields, lookupFields_unionLeaves patch.sorted hname]
    rfl
  case behindSet =>
    intro name text rest hname hrest hsegments
    rw [hmerged, hsegments, lookupFields_mergeFields, lookupFields_unionLeaves patch.sorted hname,
      if_neg (by simpa using hrest)]
  case onTheWay =>
    rintro ⟨tail, hway⟩
    have hnode := lookupFields_mergeFields_append patch.entries (pathSegments sought) tail [] r.fields
    rw [List.append_nil, hway] at hnode
    exact ⟨_, hmerged.trans hnode⟩
  case freed =>
    rintro hspared ⟨stop, hway, hstop⟩
    obtain ⟨shared, rest, hrest, hnames, hshared, hlookup⟩ :=
      hspared.found r.fields
    obtain ⟨_, behind, _, hstopped, _⟩ := id hstop
    have hprefix : stop <+: shared := (hshared stop).2 ⟨hway, hstopped ▸ List.prefix_append _ _⟩
    refine ⟨hfield.trans hstop.lookupFields_eq, ?_⟩
    rw [hmerged, hlookup, lookupFields_append_of_stop hrest hprefix hstop]
  case kept =>
    intro hspared hfree
    obtain ⟨shared, rest, hrest, hnames, hshared, hlookup⟩ :=
      hspared.found r.fields
    rw [hmerged, hlookup, hfield, hnames]
    refine (lookupFields_append hrest fun stop hprefix hstop => hfree ⟨stop, ?_, ?_⟩).symm
    · exact ((hshared stop).1 hprefix).1
    · rwa [hnames]

example :
    let r := empty.insertLeaf "a".toList "x".toList
    let patch : Params := Table.empty.insert "b".toList "y".toList
    r.field "a/c".toList = .error .throughLeaf ∧
      (r.merged "a".toList patch).field "a/c".toList = .error .missing :=
  ⟨rfl, rfl⟩

end Record

/-! ### Two merges -/

/-- What the first merge has put into a slot is where the second one goes on. -/
theorem mergeFields_mergeFields_cons (patch patch' : List (Text × Text)) (segment : Text)
    (rest rest' : List Text) (fields : List (Text × Value)) :
    mergeFields patch' (segment :: rest') (mergeFields patch (segment :: rest) fields) =
      Assoc.insert segment (.node (mergeFields patch' rest'
        (mergeFields patch rest (slotFields (Assoc.get? segment fields))))) fields := by
  rw [mergeFields, mergeFields, Assoc.get?_insert_self, Assoc.insert_insert_self]
  rfl

/-- Two merges do their work inside of the mapping to which their ways lead together. -/
theorem mergeFields_comm_append (patch patch' : List (Text × Text))
    (shared segments segments' : List Text) (fields : List (Text × Value)) :
    mergeFields patch' (shared ++ segments') (mergeFields patch (shared ++ segments) fields) =
        mergeFields patch (shared ++ segments) (mergeFields patch' (shared ++ segments') fields) ↔
      mergeFields patch' segments' (mergeFields patch segments (fieldsAt shared fields)) =
        mergeFields patch segments (mergeFields patch' segments' (fieldsAt shared fields)) := by
  induction shared generalizing fields with
  | nil => exact Iff.rfl
  | cons segment shared ih =>
    rw [List.cons_append, List.cons_append, mergeFields_mergeFields_cons,
      mergeFields_mergeFields_cons, fieldsAt, ← ih]
    refine ⟨fun h => ?_, fun h => by rw [h]⟩
    have hslot := congrArg (Assoc.get? segment) h
    rw [Assoc.get?_insert_self, Assoc.get?_insert_self] at hslot
    exact Value.node.inj (Option.some.inj hslot)

section Commute

variable {a b : Params} {fields : List (Text × Value)}

theorem unionLeaves_comm_iff (hfields : Value.Canonical (.node fields)) :
    unionLeaves (unionLeaves fields a.entries) b.entries =
        unionLeaves (unionLeaves fields b.entries) a.entries ↔
      ∀ name v w, a.get? name = some v → b.get? name = some w → v = w := by
  have hget : ∀ (first second : Params) name,
      Assoc.get? name (unionLeaves (unionLeaves fields first.entries) second.entries) =
        ((second.get? name).map Value.leaf).or
          (((first.get? name).map Value.leaf).or (Assoc.get? name fields)) := by
    intro first second name
    rw [get?_unionLeaves second.sorted, get?_unionLeaves first.sorted]
    rfl
  constructor
  · intro h name v w hv hw
    have hname := congrArg (Assoc.get? name) h
    rw [hget, hget, hv, hw] at hname
    exact (Value.leaf.inj (Option.some.inj hname)).symm
  · intro h
    apply Assoc.ext_of_get?
    · exact (canonical_unionLeaves (canonical_unionLeaves hfields _) _).sorted
    · exact (canonical_unionLeaves (canonical_unionLeaves hfields _) _).sorted
    · intro name
      rw [hget, hget]
      cases hv : a.get? name with
      | none => cases b.get? name <;> rfl
      | some v =>
        cases hw : b.get? name with
        | none => rfl
        | some w => rw [h name v w hv hw]

/-- A merge that goes on through a name meets a patch of that name, and no other one. -/
theorem mergeFields_unionLeaves_comm_iff (hfields : Value.Canonical (.node fields)) (next : Text)
    (rest : List Text) :
    mergeFields b.entries (next :: rest) (unionLeaves fields a.entries) =
        unionLeaves (mergeFields b.entries (next :: rest) fields) a.entries ↔
      a.get? next = none := by
  constructor
  · intro h
    have hnext := congrArg (Assoc.get? next) h
    rw [get?_unionLeaves a.sorted, mergeFields, mergeFields, Assoc.get?_insert_self,
      Assoc.get?_insert_self] at hnext
    cases hset : Assoc.get? next a.entries with
    | none => exact hset
    | some text =>
      rw [hset] at hnext
      cases hnext
  · intro h
    have hset : Assoc.get? next a.entries = none := h
    have hslot : Assoc.get? next (unionLeaves fields a.entries) = Assoc.get? next fields := by
      rw [get?_unionLeaves a.sorted, hset]
      rfl
    apply Assoc.ext_of_get?
    · exact (canonical_mergeFields _ _ (canonical_unionLeaves hfields _)).sorted
    · exact (canonical_unionLeaves (canonical_mergeFields _ _ hfields) _).sorted
    · intro name
      rw [mergeFields, mergeFields, hslot, get?_unionLeaves a.sorted, Assoc.get?_insert,
        Assoc.get?_insert, get?_unionLeaves a.sorted]
      by_cases hname : name = next
      · rw [if_pos hname, if_pos hname, hname, hset]
        rfl
      · rw [if_neg hname, if_neg hname]

theorem mergeFields_comm_of_ne (hfields : Value.Canonical (.node fields)) {next next' : Text}
    (h : next ≠ next') (rest rest' : List Text) :
    mergeFields b.entries (next' :: rest') (mergeFields a.entries (next :: rest) fields) =
      mergeFields a.entries (next :: rest) (mergeFields b.entries (next' :: rest') fields) := by
  simp only [mergeFields]
  rw [Assoc.get?_insert_of_ne h, Assoc.get?_insert_of_ne (Ne.symm h)]
  exact Assoc.insert_comm (Ne.symm h) _ _ hfields.sorted

/-- Neither of two merges takes away what the other one writes: their ways part, or they set the same
names to the same texts, or the one that goes on does so through a name that the other one does not
set. -/
def Compatible (segments segments' : List Text) (a b : Params) : Prop :=
  ¬ segments <+: segments' ∧ ¬ segments' <+: segments ∨
  segments = segments' ∧ (∀ name v w, a.get? name = some v → b.get? name = some w → v = w) ∨
  (∃ next rest, segments' = segments ++ next :: rest ∧ a.get? next = none) ∨
  (∃ next rest, segments = segments' ++ next :: rest ∧ b.get? next = none)

theorem mergeFields_comm_iff (hfields : Value.Canonical (.node fields))
    (segments segments' : List Text) :
    mergeFields b.entries segments' (mergeFields a.entries segments fields) =
        mergeFields a.entries segments (mergeFields b.entries segments' fields) ↔
      Compatible segments segments' a b := by
  have hinner : ∀ shared, Value.Canonical (.node (fieldsAt shared fields)) := fun shared =>
    canonical_fieldsAt shared hfields
  cases fork segments segments' with
  | same =>
    have h := mergeFields_comm_append a.entries b.entries segments [] [] fields
    rw [List.append_nil] at h
    rw [h]
    refine (unionLeaves_comm_iff (hinner segments)).trans ?_
    simp [Compatible]
  | before _ next rest =>
    have h := mergeFields_comm_append a.entries b.entries segments [] (next :: rest) fields
    rw [List.append_nil] at h
    rw [h]
    refine (mergeFields_unionLeaves_comm_iff (hinner segments) next rest).trans ?_
    simp [Compatible]
  | behind _ next rest =>
    have h := mergeFields_comm_append a.entries b.entries segments' (next :: rest) [] fields
    rw [List.append_nil] at h
    rw [h, eq_comm]
    refine (mergeFields_unionLeaves_comm_iff (hinner segments') next rest).trans ?_
    simp [Compatible]
  | apart shared rest rest' hne =>
    rw [mergeFields_comm_append]
    refine iff_of_true (mergeFields_comm_of_ne (hinner shared) hne rest rest') (.inl ⟨?_, ?_⟩)
    · exact not_prefix_of_apart shared hne rest rest'
    · exact not_prefix_of_apart shared (Ne.symm hne) rest' rest

end Commute

/-- **Two merges commute exactly if they are compatible**, and it does not depend on the record
whether they do. -/
theorem Record.merges_commute_iff (r : Record) (path path' : Text) (a b : Params) :
    (r.merged path a).merged path' b = (r.merged path' b).merged path a ↔
      Compatible (mergeSegments path) (mergeSegments path') a b := by
  rw [Record.ext_iff]
  exact mergeFields_comm_iff r.canonical (mergeSegments path) (mergeSegments path')

end DeadDrop
