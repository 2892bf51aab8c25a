import DeadDrop.Proofs.Json.Lexer
import DeadDrop.Proofs.Record.Depth
import DeadDrop.Record.Json

/-!
# What the reader accepts

The reader makes a record of the tokens of an object if all that is in the object, at every depth,
is a string or an object and the objects are nested within the limit, and of no other tokens
(`run_start_eq_some_iff`). The record is the one that setting the members makes, in the order in
which they are written.

One way, the reader follows a tree. The other way there is no tree yet: what has been read is told
by the members of the open objects, and every step of the reader makes them grow (`HasRead.step`).
-/

namespace DeadDrop

namespace Json

theorem Tree.ofTexts_nil : (Tree.object []).OfTexts := .object (by simp)

theorem Tree.OfTexts.nested {members : List (Text × Tree)} (h : (Tree.object members).OfTexts) :
    ∀ member ∈ members, member.2.OfTexts := by
  cases h with
  | object nested => exact nested

theorem Tree.OfTexts.concat {members : List (Text × Tree)} (h : (Tree.object members).OfTexts)
    (name : Text) {tree : Tree} (htree : tree.OfTexts) :
    (Tree.object (members ++ [(name, tree)])).OfTexts := by
  refine .object fun member hmember => ?_
  rcases List.mem_append.1 hmember with hmember | hmember
  · exact h.nested member hmember
  · rw [List.mem_singleton.1 hmember]
    exact htree

end Json

open Json

namespace Record

theorem Reader.run_cons (reader : Reader) (token : Token) (rest : List Token) :
    reader.run (token :: rest) = (reader.step token).bind fun next => next.run rest := by
  cases reader <;> rfl

/-! ### Trees as fields -/

mutual

/-- Sets a field to what a tree of strings and objects stands for. No other tree stands for a
field. -/
def insertTree (r : Record) (name : Text) : Tree → Record
  | .string text => r.insertLeaf name text
  | .object members => r.insertNode name (insertMembers empty members)
  | _ => r

def insertMembers (r : Record) : List (Text × Tree) → Record
  | [] => r
  | (name, tree) :: rest => insertMembers (insertTree r name tree) rest

end

theorem insertMembers_concat (r : Record) (members : List (Text × Tree)) (name : Text)
    (tree : Tree) :
    r.insertMembers (members ++ [(name, tree)]) =
      (r.insertMembers members).insertTree name tree := by
  induction members generalizing r with
  | nil => simp [insertMembers]
  | cons member members ih =>
    obtain ⟨other, first⟩ := member
    simp [insertMembers, ih]

/-! ### Reading the tokens of a tree -/

/-- In an open object the reader takes the tokens of a tree for this tree, as long as the objects in
it fit under the limit. -/
def ReadsTree (tree : Tree) : Prop :=
  ∀ (stack : List Frame) (current : Record) (name : Text) (rest : List Token),
    stack.length + 1 ≤ nestingLimit →
    Reader.run (.inside stack current (.value name)) (tree.tokens ++ rest) =
      if stack.length + 1 + tree.depth ≤ nestingLimit then
        Reader.run (.inside stack (current.insertTree name tree) .separator) rest
      else none

theorem run_name {awaiting : Awaiting} (hawaiting : awaiting = .firstName ∨ awaiting = .name)
    (stack : List Frame) (current : Record) (name : Text) (rest : List Token) :
    Reader.run (.inside stack current awaiting) (.string name :: .colon :: rest) =
      Reader.run (.inside stack current (.value name)) rest := by
  rcases hawaiting with rfl | rfl
  · rfl
  · rfl

theorem run_members {members : List (Text × Tree)}
    (hmembers : ∀ member ∈ members, ReadsTree member.2) (hne : members ≠ [])
    {awaiting : Awaiting} (hawaiting : awaiting = .firstName ∨ awaiting = .name)
    {stack : List Frame} (hstack : stack.length + 1 ≤ nestingLimit) (current : Record)
    (rest : List Token) :
    Reader.run (.inside stack current awaiting) (Tree.membersTokens members ++ .closing :: rest) =
      if stack.length + 1 + Tree.membersDepth members ≤ nestingLimit then
        Reader.run (close (current.insertMembers members) stack) rest
      else none := by
  -- what is left to read shrinks, and the open object grows by the member in front
  induction members generalizing current awaiting with
  | nil => exact absurd rfl hne
  | cons member others ih =>
    obtain ⟨name, tree⟩ := member
    obtain ⟨htree, hothers⟩ := List.forall_mem_cons.1 hmembers
    simp only [Tree.membersTokens, List.cons_append, List.append_assoc]
    rw [run_name hawaiting, htree stack current name _ hstack, Tree.membersDepth, insertMembers]
    by_cases hdepth : stack.length + 1 + tree.depth ≤ nestingLimit
    · rw [if_pos hdepth]
      cases others with
      | nil =>
        have hmax : max tree.depth (Tree.membersDepth []) = tree.depth := Nat.max_zero _
        rw [hmax, if_pos hdepth]
        rfl
      | cons next others =>
        have hcomma : ∀ tokens, Reader.run
            (.inside stack (current.insertTree name tree) .separator) (.comma :: tokens) =
              Reader.run (.inside stack (current.insertTree name tree) .name) tokens :=
          fun _ => rfl
        simp only [List.isEmpty_cons, Bool.false_eq_true, if_false, List.cons_append]
        rw [hcomma, ih hothers (by simp) (.inr rfl)]
        refine if_congr ?_ rfl rfl
        omega
    · rw [if_neg hdepth, if_neg (by omega)]

/-- The reader reads an object from behind its opening mark. -/
theorem run_object {members : List (Text × Tree)}
    (hmembers : ∀ member ∈ members, ReadsTree member.2) {stack : List Frame}
    (hstack : stack.length + 1 ≤ nestingLimit) (rest : List Token) :
    Reader.run (.inside stack empty .firstName) (Tree.membersTokens members ++ .closing :: rest) =
      if stack.length + 1 + Tree.membersDepth members ≤ nestingLimit then
        Reader.run (close (empty.insertMembers members) stack) rest
      else none := by
  cases members with
  | nil =>
    have hfits : stack.length + 1 + Tree.membersDepth [] ≤ nestingLimit := hstack
    rw [if_pos hfits]
    rfl
  | cons member others => exact run_members hmembers (by simp) (.inl rfl) hstack empty rest

theorem readsTree {tree : Tree} (h : tree.OfTexts) : ReadsTree tree := by
  induction h with
  | string text =>
    intro stack current name rest hstack
    have hfits : stack.length + 1 + (Tree.string text).depth ≤ nestingLimit := hstack
    rw [if_pos hfits]
    rfl
  | @object members nested ih =>
    intro stack current name rest hstack
    have hopen : ∀ tokens, Reader.run (.inside stack current (.value name)) (.opening :: tokens) =
        if stack.length + 2 ≤ nestingLimit then
          Reader.run (.inside ({ record := current, name } :: stack) empty .firstName) tokens
        else none := by
      intro tokens
      rw [Reader.run_cons, Reader.step]
      split <;> rfl
    simp only [Tree.tokens, List.cons_append, List.append_assoc, List.nil_append]
    rw [hopen, Tree.depth]
    by_cases hroom : stack.length + 2 ≤ nestingLimit
    · have hinner : ({ record := current, name } :: stack : List Frame).length + 1 ≤ nestingLimit :=
        hroom
      rw [if_pos hroom, run_object ih hinner]
      refine if_congr ?_ rfl rfl
      rw [List.length_cons]
      omega
    · rw [if_neg hroom, if_neg (by omega)]

theorem run_start_tokens {members : List (Text × Tree)} (h : (Tree.object members).OfTexts) :
    Reader.run .start (Tree.object members).tokens =
      if (Tree.object members).depth ≤ nestingLimit then some (empty.insertMembers members)
      else none := by
  have hopen : ∀ tokens, Reader.run .start (.opening :: tokens) =
      Reader.run (.inside [] empty .firstName) tokens := fun _ => rfl
  rw [Tree.tokens, List.cons_append, hopen,
    run_object (fun member hmember => readsTree (h.nested member hmember)) (by decide), Tree.depth,
    List.length_nil, Nat.zero_add, Nat.add_comm]
  rfl

/-! ### What has been read -/

/-- The tokens of members and of the comma behind them, if there are any. -/
def begun (members : List (Text × Tree)) : List Token :=
  Tree.membersTokens members ++ if members.isEmpty then [] else [.comma]

theorem Tree.membersTokens_concat (members : List (Text × Tree)) (name : Text) (tree : Tree) :
    Tree.membersTokens (members ++ [(name, tree)]) =
      begun members ++ .string name :: .colon :: tree.tokens := by
  induction members with
  | nil => simp [begun, Tree.membersTokens]
  | cons member members ih =>
    obtain ⟨other, first⟩ := member
    rw [List.cons_append, Tree.membersTokens, ih, begun, begun, Tree.membersTokens]
    cases members <;> simp [Tree.membersTokens]

/-- The tokens in front of the members of the innermost open object. -/
inductive Around : List Frame → List Token → Prop where
  | root : Around [] [.opening]
  | inside {frame : Frame} {stack : List Frame} {before : List Token}
    {members : List (Text × Tree)} (outer : Around stack before)
    (ofTexts : (Tree.object members).OfTexts) :
    Around (frame :: stack) (before ++ begun members ++ [.string frame.name, .colon, .opening])

/-- The tokens that have been read, told by the members of the open objects. -/
inductive Reader.HasRead : Reader → List Token → Prop where
  | start : HasRead .start []
  | finished {record : Record} {members : List (Text × Tree)}
    (ofTexts : (Tree.object members).OfTexts) :
    HasRead (.finished record) (Tree.object members).tokens
  | firstName {stack : List Frame} {current : Record} {before : List Token}
    (around : Around stack before) : HasRead (.inside stack current .firstName) before
  | name {stack : List Frame} {current : Record} {before : List Token}
    {members : List (Text × Tree)} (around : Around stack before)
    (ofTexts : (Tree.object members).OfTexts) (ne : members ≠ []) :
    HasRead (.inside stack current .name) (before ++ begun members)
  | colon {stack : List Frame} {current : Record} {before : List Token}
    {members : List (Text × Tree)} {name : Text} (around : Around stack before)
    (ofTexts : (Tree.object members).OfTexts) :
    HasRead (.inside stack current (.colon name)) (before ++ begun members ++ [.string name])
  | value {stack : List Frame} {current : Record} {before : List Token}
    {members : List (Text × Tree)} {name : Text} (around : Around stack before)
    (ofTexts : (Tree.object members).OfTexts) :
    HasRead (.inside stack current (.value name))
      (before ++ begun members ++ [.string name, .colon])
  | separator {stack : List Frame} {current : Record} {before : List Token}
    {members : List (Text × Tree)} (around : Around stack before)
    (ofTexts : (Tree.object members).OfTexts) (ne : members ≠ []) :
    HasRead (.inside stack current .separator) (before ++ Tree.membersTokens members)

theorem hasRead_separator {stack : List Frame} {before : List Token} {members : List (Text × Tree)}
    {name : Text} {tree : Tree} (current : Record) (around : Around stack before)
    (ofTexts : (Tree.object members).OfTexts) (htree : tree.OfTexts) :
    Reader.HasRead (.inside stack current .separator)
      (before ++ begun members ++ .string name :: .colon :: tree.tokens) := by
  have h := @Reader.HasRead.separator _ current _ _ around (ofTexts.concat name htree) (by simp)
  rwa [Tree.membersTokens_concat, ← List.append_assoc] at h

theorem hasRead_close {stack : List Frame} {before : List Token} {members : List (Text × Tree)}
    (current : Record) (around : Around stack before) (ofTexts : (Tree.object members).OfTexts) :
    (close current stack).HasRead (before ++ Tree.membersTokens members ++ [.closing]) := by
  cases around with
  | root => exact .finished ofTexts
  | @inside frame stack before outer around outerTexts =>
    -- the closed object is the next member of the one around it
    have h := @hasRead_separator _ _ _ frame.name _ (frame.record.insertNode frame.name current)
      around outerTexts ofTexts
    simpa [close, Tree.tokens] using h

theorem Reader.HasRead.step {reader next : Reader} {token : Token} {tokens : List Token}
    (h : reader.HasRead tokens) (hstep : reader.step token = some next) :
    next.HasRead (tokens ++ [token]) := by
  cases h with
  | start =>
    cases token with
    | opening =>
      obtain rfl := Option.some.inj hstep
      exact .firstName .root
    | _ => cases hstep
  | finished ofTexts => cases hstep
  | firstName around =>
    cases token with
    | closing =>
      obtain rfl := Option.some.inj hstep
      simpa [Tree.membersTokens] using hasRead_close _ around Tree.ofTexts_nil
    | string name =>
      obtain rfl := Option.some.inj hstep
      simpa [begun, Tree.membersTokens] using Reader.HasRead.colon around Tree.ofTexts_nil
    | _ => cases hstep
  | name around ofTexts ne =>
    cases token with
    | string name =>
      obtain rfl := Option.some.inj hstep
      exact .colon around ofTexts
    | _ => cases hstep
  | colon around ofTexts =>
    cases token with
    | colon =>
      obtain rfl := Option.some.inj hstep
      simpa using Reader.HasRead.value around ofTexts
    | _ => cases hstep
  | value around ofTexts =>
    cases token with
    | string text =>
      obtain rfl := Option.some.inj hstep
      simpa [Tree.tokens] using hasRead_separator _ around ofTexts (.string text)
    | opening =>
      simp only [Reader.step] at hstep
      split at hstep
      · obtain rfl := Option.some.inj hstep
        simpa using Reader.HasRead.firstName (.inside around ofTexts)
      · cases hstep
    | _ => cases hstep
  | separator around ofTexts ne =>
    cases token with
    | closing =>
      obtain rfl := Option.some.inj hstep
      exact hasRead_close _ around ofTexts
    | comma =>
      obtain rfl := Option.some.inj hstep
      simpa [begun, ne] using Reader.HasRead.name around ofTexts ne
    | _ => cases hstep

theorem Reader.HasRead.run {reader : Reader} {before tokens : List Token} {record : Record}
    (h : reader.HasRead before) (hrun : reader.run tokens = some record) :
    ∃ members, (Tree.object members).OfTexts ∧ before ++ tokens = (Tree.object members).tokens := by
  induction tokens generalizing reader before with
  | nil =>
    cases h with
    | @finished _ members ofTexts => exact ⟨members, ofTexts, List.append_nil _⟩
    | _ => cases hrun
  | cons token rest ih =>
    rw [Reader.run_cons] at hrun
    obtain ⟨next, hnext, hrest⟩ := Option.bind_eq_some_iff.1 hrun
    simpa using ih (h.step hnext) hrest

theorem run_start_eq_some_iff {tokens : List Token} {record : Record} :
    Reader.run .start tokens = some record ↔
      ∃ members, (Tree.object members).OfTexts ∧ (Tree.object members).depth ≤ nestingLimit ∧
        tokens = (Tree.object members).tokens ∧ record = empty.insertMembers members := by
  constructor
  · intro h
    obtain ⟨members, ofTexts, htokens⟩ := Reader.HasRead.start.run h
    rw [List.nil_append] at htokens
    rw [htokens, run_start_tokens ofTexts] at h
    split at h
    next hdepth => exact ⟨members, ofTexts, hdepth, htokens, (Option.some.inj h).symm⟩
    next => cases h
  · rintro ⟨members, ofTexts, hdepth, rfl, rfl⟩
    rw [run_start_tokens ofTexts, if_pos hdepth]

/-- **What is read is a text of strings and objects, nested within the limit.** -/
theorem ofJson?_eq_some_iff {t : Text} {record : Record} :
    ofJson? t = some record ↔
      ∃ members, (Tree.object members).IsTextOf t ∧ (Tree.object members).OfTexts ∧
        (Tree.object members).depth ≤ nestingLimit ∧ record = empty.insertMembers members := by
  rw [ofJson?, Option.bind_eq_some_iff]
  constructor
  · rintro ⟨tokens, hlex, hrun⟩
    obtain ⟨members, ofTexts, hdepth, rfl, hrecord⟩ := run_start_eq_some_iff.1 hrun
    exact ⟨members, (lex_eq_some_iff ofTexts).1 hlex, ofTexts, hdepth, hrecord⟩
  · rintro ⟨members, htext, ofTexts, hdepth, hrecord⟩
    exact ⟨_, (lex_eq_some_iff ofTexts).2 htext,
      run_start_eq_some_iff.2 ⟨members, ofTexts, hdepth, rfl, hrecord⟩⟩

end Record

end DeadDrop
