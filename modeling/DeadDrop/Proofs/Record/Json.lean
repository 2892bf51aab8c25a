import DeadDrop.Proofs.Json.Quoted
import DeadDrop.Proofs.Record.Reader
import DeadDrop.Proofs.Table
import DeadDrop.Proofs.Text.Utf8

/-!
# Reading back stored records

What is stored of a record reads back as this record, if its objects are nested within the limit of
the reader, and reads as nothing otherwise (`ofBytes?_toBytes`). Writing has no limit, so this says
exactly which records survive being stored. Whatever is read keeps the limit
(`depth_le_of_ofBytes?`).

The proof goes through the tree of a value: the JSON of the value is a text of this tree, and setting
the members of the tree one after the other gives the value back.
-/

namespace DeadDrop

open Json

/-! ### The tree of a value -/

mutual

def Value.toTree : Value → Tree
  | .leaf text => .string text
  | .node fields => .object (membersToTrees fields)

def membersToTrees : List (Text × Value) → List (Text × Tree)
  | [] => []
  | (name, value) :: rest => (name, value.toTree) :: membersToTrees rest

end

theorem membersToTrees_eq_map (fields : List (Text × Value)) :
    membersToTrees fields = fields.map fun entry => (entry.1, entry.2.toTree) := by
  induction fields with
  | nil => rfl
  | cons entry rest ih => rw [membersToTrees, List.map_cons, ih]

theorem Value.ofTexts_toTree (v : Value) : v.toTree.OfTexts := by
  induction v using Value.inductionOn with
  | leaf text => exact .string text
  | node fields ih =>
    refine .object fun member hmember => ?_
    rw [membersToTrees_eq_map] at hmember
    obtain ⟨entry, hentry, rfl⟩ := List.mem_map.1 hmember
    exact ih entry hentry

theorem membersDepth_membersToTrees {fields : List (Text × Value)}
    (h : ∀ entry ∈ fields, entry.2.toTree.depth = entry.2.depth) :
    Tree.membersDepth (membersToTrees fields) = membersDepth fields := by
  induction fields with
  | nil => rfl
  | cons entry rest ih =>
    obtain ⟨hentry, hrest⟩ := List.forall_mem_cons.1 h
    rw [membersToTrees, Tree.membersDepth, membersDepth, hentry, ih hrest]

theorem Value.depth_toTree (v : Value) : v.toTree.depth = v.depth := by
  induction v using Value.inductionOn with
  | leaf text => rfl
  | node fields ih => rw [Value.toTree, Tree.depth, Value.depth, membersDepth_membersToTrees ih]

/-! ### Writing -/

theorem padded_of_spelled {Spelled : Text → Prop} {t : Text} (h : Spelled t) : Padded Spelled t :=
  ⟨[], t, [], by simp [IsBlank], h, by simp [IsBlank], by simp⟩

theorem membersSpelled_membersJson {fields : List (Text × Value)}
    (h : ∀ entry ∈ fields, entry.2.toTree.Spelled entry.2.toJson) :
    Tree.membersSpelled (membersToTrees fields) (membersJson fields) := by
  induction fields with
  | nil => simp [membersToTrees, Tree.membersSpelled, membersJson, IsBlank]
  | cons entry rest ih =>
    obtain ⟨name, value⟩ := entry
    obtain ⟨hvalue, hrest⟩ := List.forall_mem_cons.1 h
    refine ⟨_, _, if rest.isEmpty then [] else ',' :: membersJson rest,
      padded_of_spelled (stringSpelled_quote name), padded_of_spelled hvalue, ?_, rfl⟩
    cases rest with
    | nil => rfl
    | cons next rest => exact ⟨_, ih hrest, rfl⟩

theorem Value.spelled_toJson (v : Value) : v.toTree.Spelled v.toJson := by
  induction v using Value.inductionOn with
  | leaf text => exact stringSpelled_quote text
  | node fields ih => exact ⟨membersJson fields, membersSpelled_membersJson ih, rfl⟩

namespace Record

/-! ### Reading -/

def insertValue (r : Record) (name : Text) {value : Value} (h : value.Canonical) : Record :=
  ⟨Assoc.insert name value r.fields, r.canonical.insert name h⟩

/-- The members of a record, some of which have been set. -/
theorem insertMembers_membersToTrees {fields : List (Text × Value)}
    (hmembers : ∀ entry ∈ fields, ∀ (hv : entry.2.Canonical) (r : Record) (name : Text),
      r.insertTree name entry.2.toTree = r.insertValue name hv) {current whole : Record}
    (hwhole : whole.fields = current.fields ++ fields) :
    current.insertMembers (membersToTrees fields) = whole := by
  induction fields generalizing current with
  | nil => exact Record.ext (by rw [hwhole, List.append_nil]; rfl)
  | cons entry rest ih =>
    obtain ⟨name, value⟩ := entry
    obtain ⟨hentry, hrest⟩ := List.forall_mem_cons.1 hmembers
    have hcanonical := whole.canonical
    rw [hwhole] at hcanonical
    have hvalue : value.Canonical := hcanonical.nested (name, value) (by simp)
    have hbefore : ∀ e ∈ current.fields, e.1 < name := fun e he =>
      (List.pairwise_append.1 hcanonical.sorted).2.2 e he (name, value) List.mem_cons_self
    have hcurrent : (current.insertValue name hvalue).fields = current.fields ++ [(name, value)] :=
      Assoc.insert_eq_append hbefore
    rw [membersToTrees, insertMembers, hentry hvalue current name]
    exact ih hrest (by rw [hwhole, hcurrent, List.append_assoc, List.singleton_append])

theorem insertTree_toTree (v : Value) (hv : v.Canonical) (r : Record) (name : Text) :
    r.insertTree name v.toTree = r.insertValue name hv := by
  induction v using Value.inductionOn generalizing r name with
  | leaf text => rfl
  | node fields ih =>
    have hinner : empty.insertMembers (membersToTrees fields) = ⟨fields, hv⟩ :=
      insertMembers_membersToTrees (fun entry hentry hv r name => ih entry hentry hv r name) rfl
    rw [Value.toTree, insertTree, hinner]
    rfl

theorem insertMembers_fields (r : Record) : empty.insertMembers (membersToTrees r.fields) = r :=
  insertMembers_membersToTrees (fun entry _ => insertTree_toTree entry.2) rfl

/-! ### Round trip -/

theorem ofJson?_toJson (r : Record) :
    ofJson? r.toJson = if r.depth ≤ nestingLimit then some r else none := by
  have ofTexts := (Value.node r.fields).ofTexts_toTree
  have hlex : Json.lex r.toJson = some (Value.node r.fields).toTree.tokens :=
    (lex_eq_some_iff ofTexts).2 (padded_of_spelled (Value.node r.fields).spelled_toJson)
  have hdepth : (Value.node r.fields).toTree.depth = r.depth := (Value.node r.fields).depth_toTree
  rw [ofJson?, hlex, Option.bind_some]
  rw [Value.toTree] at ofTexts hdepth ⊢
  rw [run_start_tokens ofTexts, hdepth, insertMembers_fields]

/-- **The stored form.** The bytes of a record read as this record if its objects are nested within
the limit, and as nothing otherwise. -/
theorem ofBytes?_toBytes (r : Record) :
    ofBytes? r.toBytes = if r.depth ≤ nestingLimit then some r else none := by
  rw [ofBytes?, toBytes, Text.ofUtf8?_toUtf8, Option.bind_some, ofJson?_toJson]

/-! ### The limit on what is read -/

theorem depth_insertMembers_le {members : List (Text × Tree)}
    (h : ∀ member ∈ members, ∀ (r : Record) (name : Text),
      (r.insertTree name member.2).depth ≤ max r.depth (member.2.depth + 1)) (r : Record) :
    (r.insertMembers members).depth ≤ max r.depth (Tree.membersDepth members + 1) := by
  induction members generalizing r with
  | nil => exact Nat.le_max_left _ _
  | cons member rest ih =>
    obtain ⟨name, tree⟩ := member
    obtain ⟨hmember, hrest⟩ := List.forall_mem_cons.1 h
    have hfirst := hmember r name
    have hothers := ih hrest (r.insertTree name tree)
    rw [insertMembers, Tree.membersDepth]
    dsimp only at hfirst
    omega

theorem depth_insertTree_le {tree : Tree} (h : tree.OfTexts) (r : Record) (name : Text) :
    (r.insertTree name tree).depth ≤ max r.depth (tree.depth + 1) := by
  induction h generalizing r name with
  | string text => exact Nat.le_trans (r.depth_insertLeaf_le name text) (Nat.le_max_left _ _)
  | @object members _ ih =>
    have hinner := depth_insertMembers_le ih empty
    have hempty : empty.depth = 1 := rfl
    have hnode := r.depth_insertNode_le name (empty.insertMembers members)
    rw [insertTree, Tree.depth]
    omega

theorem depth_le_of_ofBytes? {b : Bytes} {r : Record} (h : ofBytes? b = some r) :
    r.depth ≤ nestingLimit := by
  obtain ⟨t, _, hjson⟩ := Option.bind_eq_some_iff.1 h
  obtain ⟨members, _, ofTexts, hdepth, rfl⟩ := ofJson?_eq_some_iff.1 hjson
  have hrecord := depth_insertMembers_le
    (fun member hmember => depth_insertTree_le (ofTexts.nested member hmember)) empty
  have hempty : empty.depth = 1 := rfl
  rw [Tree.depth] at hdepth
  omega

end Record

end DeadDrop
