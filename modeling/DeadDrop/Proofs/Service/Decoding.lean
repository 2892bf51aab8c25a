import DeadDrop.Proofs.Service.StoredForm

/-!
# What is read as a record

Bytes are read as a record exactly if they are the UTF-8 of a JSON text that is an object of strings
and objects, nested within the limit (`ofBytes?_eq_some_iff`). Any other value in it, at any depth
and under any name, also one that is repeated later, makes it unreadable.

The record is what the object stands for: a string stands for a leaf and an object for a mapping, in
which every name stands for what the last member of this name stands for (`Tree.Denotes`). Setting
the members in the order in which they are written makes this mapping (`denotes_insertMembers`), and
no other one will do (`Tree.Denotes.unique`).
-/

namespace DeadDrop

namespace Json

/-! ### Last members -/

variable {name : Text} {tree : Tree} {members : List (Text × Tree)}

theorem isLast_concat_iff {other : Text} {last : Tree} :
    IsLast name tree (members ++ [(other, last)]) ↔
      if name = other then tree = last else IsLast name tree members := by
  constructor
  · rintro ⟨before, behind, hmembers, hbehind⟩
    rcases List.eq_nil_or_concat behind with rfl | ⟨behind, final, rfl⟩
    · obtain ⟨-, hlast⟩ := List.append_inj' hmembers rfl
      obtain ⟨rfl, rfl⟩ := Prod.mk.inj (List.cons.inj hlast).1
      rw [if_pos rfl]
    · rw [List.concat_eq_append, ← List.cons_append, ← List.append_assoc] at hmembers
      obtain ⟨rfl, hlast⟩ := List.append_inj' hmembers rfl
      obtain rfl := (List.cons.inj hlast).1
      have hname : name ≠ other := (hbehind (other, last) (by simp)).symm
      rw [if_neg hname]
      exact ⟨before, behind, rfl, fun member hmember => hbehind member (by simp [hmember])⟩
  · intro h
    split at h
    next hname =>
      subst hname h
      exact ⟨members, [], rfl, by simp⟩
    next hname =>
      obtain ⟨before, behind, rfl, hbehind⟩ := h
      refine ⟨before, behind ++ [(other, last)], by simp, fun member hmember => ?_⟩
      rcases List.mem_append.1 hmember with hmember | hmember
      · exact hbehind member hmember
      · rw [List.mem_singleton.1 hmember]
        exact Ne.symm hname

theorem exists_isLast_iff : (∃ tree, IsLast name tree members) ↔ name ∈ members.map Prod.fst := by
  induction members using List.reverseRecOn with
  | nil => simp [IsLast]
  | append_singleton members member ih =>
    obtain ⟨other, last⟩ := member
    simp only [isLast_concat_iff]
    by_cases hname : name = other
    · simp [hname]
    · simp [hname, ih]

/-! ### Trees and values -/

/-- What a tree stands for. -/
inductive Tree.Denotes : Tree → Value → Prop where
  | leaf (text : Text) : Denotes (.string text) (.leaf text)
  | node {members : List (Text × Tree)} {fields : List (Text × Value)}
    (names : ∀ name, (∃ value, Assoc.get? name fields = some value) ↔ name ∈ members.map Prod.fst)
    (values : ∀ name tree value, IsLast name tree members → Assoc.get? name fields = some value →
      tree.Denotes value) : Denotes (.object members) (.node fields)

theorem Tree.Denotes.unique {tree : Tree} {v w : Value} (hv : tree.Denotes v) (hw : tree.Denotes w)
    (cv : v.Canonical) (cw : w.Canonical) : v = w := by
  induction hv generalizing w with
  | leaf text =>
    cases hw
    rfl
  | @node members fields names values ih =>
    cases hw with
    | @node _ others names' values' =>
      refine congrArg Value.node (Assoc.ext_of_get? cv.sorted cw.sorted fun name => ?_)
      by_cases hname : name ∈ members.map Prod.fst
      · obtain ⟨tree, hlast⟩ := exists_isLast_iff.2 hname
        obtain ⟨value, hvalue⟩ := (names name).2 hname
        obtain ⟨other, hother⟩ := (names' name).2 hname
        rw [hvalue, hother, ih name tree value hlast hvalue (values' name tree other hlast hother)
          (cv.get? hvalue) (cw.get? hother)]
      · rw [Option.eq_none_iff_forall_ne_some.2 fun value h => hname ((names name).1 ⟨value, h⟩),
          Option.eq_none_iff_forall_ne_some.2 fun value h => hname ((names' name).1 ⟨value, h⟩)]

end Json

open Json

namespace Record

/-- A tree that stands for a field sets it to what it stands for. -/
def SetsField (tree : Tree) : Prop :=
  ∃ (value : Value) (h : value.Canonical), tree.Denotes value ∧
    ∀ (r : Record) (name : Text), r.insertTree name tree = r.insertValue name h

theorem denotes_insertMembers {members : List (Text × Tree)}
    (h : ∀ member ∈ members, SetsField member.2) :
    (Tree.object members).Denotes (.node (empty.insertMembers members).fields) := by
  induction members using List.reverseRecOn with
  | nil =>
    refine .node (fun name => ?_) fun name tree value hlast hvalue => ?_
    · simp [insertMembers, empty, Assoc.get?]
    · cases hvalue
  | append_singleton members member ih =>
    obtain ⟨other, last⟩ := member
    obtain ⟨hmembers, hlast⟩ := List.forall_mem_append.1 h
    obtain ⟨value, hcanonical, hdenotes, hset⟩ := hlast (other, last) (by simp)
    have hfields : (empty.insertMembers (members ++ [(other, last)])).fields =
        Assoc.insert other value (empty.insertMembers members).fields := by
      rw [insertMembers_concat, hset]
      rfl
    rw [hfields]
    cases ih hmembers with
    | node names values =>
      refine .node (fun name => ?_) fun name tree found hlast hfound => ?_
      · rw [Assoc.get?_insert]
        by_cases hname : name = other
        · simp [hname]
        · simpa [hname] using names name
      · rw [Assoc.get?_insert] at hfound
        rw [isLast_concat_iff] at hlast
        split at hlast
        next hname =>
          rw [if_pos hname] at hfound
          obtain rfl := Option.some.inj hfound
          rw [hlast]
          exact hdenotes
        next hname =>
          rw [if_neg hname] at hfound
          exact values name tree found hlast hfound

theorem setsField {tree : Tree} (h : tree.OfTexts) : SetsField tree := by
  induction h with
  | string text => exact ⟨.leaf text, .leaf text, .leaf text, fun _ _ => rfl⟩
  | @object members _ ih =>
    exact ⟨_, (empty.insertMembers members).canonical, denotes_insertMembers ih, fun _ _ => rfl⟩

/-! ### Bytes -/

/-- An object of strings and objects stands for the record that its members make, and for no
other. -/
theorem denotes_iff {members : List (Text × Tree)} (h : (Tree.object members).OfTexts)
    {record : Record} :
    (Tree.object members).Denotes (.node record.fields) ↔
      record = empty.insertMembers members := by
  have hdenotes := denotes_insertMembers fun member hmember => setsField (h.nested member hmember)
  refine ⟨fun hrecord => ?_, fun hrecord => hrecord ▸ hdenotes⟩
  have hvalue := hrecord.unique hdenotes record.canonical (empty.insertMembers members).canonical
  exact Record.ext (Value.node.inj hvalue)

end Record

/-- The bytes are the UTF-8 of a JSON text. -/
def Json.Tree.SpelledBy (tree : Tree) (b : Bytes) : Prop :=
  ∃ t : Text, b = t.toUtf8 ∧ tree.IsTextOf t

/-- An object of strings and objects, at most 127 of them inside of one another. -/
structure Json.Tree.RecordShaped (tree : Tree) : Prop where
  object : ∃ members, tree = .object members
  ofTexts : tree.OfTexts
  depth_le : tree.depth ≤ 127

namespace Record

variable {b : Bytes} {record : Record}

theorem ofBytes?_eq_some_iff :
    ofBytes? b = some record ↔
      ∃ tree : Tree, tree.SpelledBy b ∧ tree.RecordShaped ∧ tree.Denotes (.node record.fields) := by
  simp only [ofBytes?, Option.bind_eq_some_iff, Text.ofUtf8?_eq_some_iff, ofJson?_eq_some_iff]
  constructor
  · rintro ⟨t, hb, members, htext, ofTexts, hdepth, hrecord⟩
    exact ⟨.object members, ⟨t, hb, htext⟩, ⟨⟨members, rfl⟩, ofTexts, hdepth⟩,
      (denotes_iff ofTexts).2 hrecord⟩
  · rintro ⟨_, ⟨t, hb, htext⟩, ⟨⟨members, rfl⟩, ofTexts, hdepth⟩, hdenotes⟩
    exact ⟨t, hb, members, htext, ofTexts, hdepth, (denotes_iff ofTexts).1 hdenotes⟩

/-- The same, told of any tree that the bytes spell: there is no other reading of them. -/
theorem ofBytes?_eq_some_iff_of_spelledBy {tree : Tree} (h : tree.SpelledBy b) :
    ofBytes? b = some record ↔ tree.RecordShaped ∧ tree.Denotes (.node record.fields) := by
  refine ⟨fun hread => ?_, fun ⟨hshaped, hdenotes⟩ =>
    ofBytes?_eq_some_iff.2 ⟨tree, h, hshaped, hdenotes⟩⟩
  obtain ⟨t, rfl, htext⟩ := h
  rw [ofBytes?, Text.ofUtf8?_toUtf8, Option.bind_some, ofJson?, Option.bind_eq_some_iff] at hread
  obtain ⟨tokens, hlex, hrun⟩ := hread
  have ofTexts := ofTexts_of_lex htext hlex
  have htokens := (lex_eq_some_iff ofTexts).2 htext
  rw [hlex, Option.some.injEq] at htokens
  subst htokens
  cases ofTexts with
  | string text => cases hrun
  | @object members nested =>
    rw [run_start_tokens (.object nested)] at hrun
    split at hrun
    next hdepth =>
      exact ⟨⟨⟨members, rfl⟩, .object nested, hdepth⟩,
        (denotes_iff (.object nested)).2 (Option.some.inj hrun).symm⟩
    next => cases hrun

end Record

namespace RecordStore

variable {σ : Type}

theorem decoded_eq_ok_iff {b : Bytes} {record : Record} :
    decoded b = .ok record ↔ Record.ofBytes? b = some record :=
  ⟨decoded_eq_ok, fun h => by rw [decoded, h]⟩

/-- **What is read as a record.** Bytes are read as a record if they spell an object of strings and
objects that are nested at most 127 deep, and the record is what this object stands for, with the
last value of every name. All other bytes fail to be decoded: those that spell no value, and those
that spell any other value. -/
theorem read_exactly_when_spelled [Backend σ] (clock : Clock) (key : Text) (s : RecordStore σ) :
    (∀ b, (∃ record, decoded b = .ok record) ↔
      ∃ tree : Tree, tree.SpelledBy b ∧ tree.RecordShaped) ∧
    (∀ b (tree : Tree), tree.SpelledBy b → ∀ record,
      decoded b = .ok record ↔ tree.RecordShaped ∧ tree.Denotes (.node record.fields)) ∧
    (∀ b, (¬ ∃ tree : Tree, tree.SpelledBy b ∧ tree.RecordShaped) →
      ∃ reason, decoded b = .error (.decode reason)) ∧
    ∀ b, (Backend.read clock key s.backend).1 = .ok (some b) →
      (get clock key s).1 = decoded b := by
  have hread : ∀ b, (∃ record, decoded b = .ok record) ↔
      ∃ tree : Tree, tree.SpelledBy b ∧ tree.RecordShaped := by
    intro b
    constructor
    · rintro ⟨record, hrecord⟩
      obtain ⟨tree, hb, hshaped, -⟩ :=
        Record.ofBytes?_eq_some_iff.1 (decoded_eq_ok_iff.1 hrecord)
      exact ⟨tree, hb, hshaped⟩
    · rintro ⟨tree, hb, hshaped⟩
      obtain ⟨members, rfl⟩ := hshaped.object
      have hdenotes := (Record.denotes_iff hshaped.ofTexts).2 rfl
      exact ⟨_, decoded_eq_ok_iff.2
        (Record.ofBytes?_eq_some_iff.2 ⟨.object members, hb, hshaped, hdenotes⟩)⟩
  refine ⟨hread, fun b tree hb record => ?_, fun b hb => ?_, fun b => get_of_read⟩
  · rw [decoded_eq_ok_iff, Record.ofBytes?_eq_some_iff_of_spelledBy hb]
  · unfold decoded
    cases h : Record.ofBytes? b with
    | none => exact ⟨_, rfl⟩
    | some record => exact absurd ((hread b).1 ⟨record, decoded_eq_ok_iff.2 h⟩) hb

/-- An object in which a number stands under a name that is repeated later. -/
def hiddenNumber : Tree :=
  .object [(['a'], .number ['1']), (['a'], .string ['x'])]

/-- Bytes with blanks, a repeated name that is spelled by a code the second time, and a character
beyond U+FFFF; and bytes that spell a number under a name that is repeated later. -/
theorem read_exactly_when_spelled_sample :
    let clock : Clock := ⟨0, 0⟩
    let b := Text.toUtf8
      "\x7b \"a\": \"x\", \"\\u0061\": \x7b\"b\": \"\\ud83d\\ude00\"\x7d \x7d".toList
    let store : RecordStore Memory := ⟨(Memory.write clock ['k'] b none .empty).2, 0⟩
    let hidden := Text.toUtf8 "\x7b\"a\":1,\"a\":\"x\"\x7d".toList
    (∃ tree : Tree, tree.SpelledBy b ∧ tree.RecordShaped ∧
      tree.Denotes (.node [(['a'], .node [(['b'], .leaf ['😀'])])])) ∧
    (∃ record, (get clock ['k'] store).1 = .ok record) ∧
    hiddenNumber.SpelledBy hidden ∧ (∀ record, decoded hidden ≠ .ok record) ∧
    ∃ reason, decoded hidden = .error (.decode reason) := by
  intro clock b store hidden
  obtain ⟨hread, htree, hother, hget⟩ := read_exactly_when_spelled clock ['k'] store
  have hb : decoded b =
      .ok (Record.empty.insertNode ['a'] (Record.empty.insertLeaf ['b'] ['😀'])) := rfl
  obtain ⟨tree, hspelled, hshaped⟩ := (hread b).1 ⟨_, hb⟩
  have hhidden : hiddenNumber.SpelledBy hidden := by
    have hnumeral : IsNumeral ['1'] :=
      ⟨[], ['1'], [], [], rfl, by simp, .inr ⟨⟨by simp, by simp⟩, by simp⟩, .inl rfl, .inl rfl⟩
    have hname : Padded (StringSpelled ['a']) _ := padded_of_spelled (stringSpelled_quote ['a'])
    have hfirst : Padded (Tree.number ['1']).Spelled _ := padded_of_spelled ⟨hnumeral, rfl⟩
    have hsecond : Padded (Tree.string ['x']).Spelled _ :=
      padded_of_spelled (stringSpelled_quote ['x'])
    have hlast : Tree.membersSpelled [(['a'], .string ['x'])] _ :=
      ⟨_, _, [], hname, hsecond, rfl, rfl⟩
    exact ⟨_, rfl, padded_of_spelled ⟨_, ⟨_, _, _, hname, hfirst, ⟨_, hlast, rfl⟩, rfl⟩, rfl⟩⟩
  have hrefused : ∀ record, decoded hidden ≠ .ok record := by
    intro record hrecord
    have hshaped := ((htree hidden hiddenNumber hhidden record).1 hrecord).1
    cases hshaped.ofTexts.nested (['a'], .number ['1']) (by simp)
  have hstored : (get clock ['k'] store).1 = decoded b := hget b rfl
  refine ⟨⟨tree, hspelled, hshaped, ((htree b tree hspelled _).1 hb).2⟩, ⟨_, hstored.trans hb⟩,
    hhidden, hrefused, hother hidden fun ⟨tree, hspelled, hshaped⟩ => ?_⟩
  obtain ⟨record, hrecord⟩ := (hread hidden).2 ⟨tree, hspelled, hshaped⟩
  exact hrefused record hrecord

end RecordStore

end DeadDrop
