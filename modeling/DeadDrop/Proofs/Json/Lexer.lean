import DeadDrop.Proofs.Json.Strings

/-!
# What the lexer accepts

The lexer finds the tokens of a tree of strings and objects in a text exactly if the text is one of
this tree (`lex_eq_some_iff`), and no other tree has a text with tokens (`ofTexts_of_lex`).

A token is what stands in front of the others with blanks before it (`lexFrom_eq_cons_iff`), and the
tokens of a tree follow the tree.
-/

namespace DeadDrop.Json

/-! ### Tokens -/

def Token.Spelled : Token → Text → Prop
  | .opening, t => t = ['\x7b']
  | .closing, t => t = ['\x7d']
  | .colon, t => t = [':']
  | .comma, t => t = [',']
  | .string text, t => StringSpelled text t

section Tokens

variable {t : Text} {token : Token} {tokens : List Token}

theorem lexFrom_token {spelling : Text} (h : token.Spelled spelling) (rest : Text) :
    lexFrom .between (spelling ++ rest) = (lexFrom .between rest).map (token :: ·) := by
  cases token with
  | string text =>
    obtain ⟨inside, htext, rfl⟩ := h
    have hend : lexStep (.string (text.reverse ++ [])) '"' =
        some (.between, some (.string text)) := by simp [lexStep]
    rw [List.append_assoc, List.cons_append, lexFrom_of_step rfl, lexFrom_chars htext,
      List.singleton_append, lexFrom_of_token hend]
  | opening | closing | colon | comma =>
    obtain rfl := h
    exact lexFrom_of_token rfl rest

/-- The first character of a text tells what stands there: a blank, a mark or a string. -/
theorem lexFrom_between_cases {c : Char} {rest : Text}
    (h : lexFrom .between (c :: rest) = some tokens) :
    c ∈ [' ', '\t', '\n', '\r'] ∨
      ∃ (token : Token) (spelling behind : Text), token.Spelled spelling ∧
        c :: rest = spelling ++ behind := by
  by_cases hblank : c = ' ' ∨ c = '\t' ∨ c = '\n' ∨ c = '\r'
  · exact .inl (by simpa using hblank)
  refine .inr ?_
  by_cases hopening : c = '\x7b'
  · exact ⟨.opening, [c], rest, by rw [hopening]; rfl, rfl⟩
  by_cases hclosing : c = '\x7d'
  · exact ⟨.closing, [c], rest, by rw [hclosing]; rfl, rfl⟩
  by_cases hcolon : c = ':'
  · exact ⟨.colon, [c], rest, by rw [hcolon]; rfl, rfl⟩
  by_cases hcomma : c = ','
  · exact ⟨.comma, [c], rest, by rw [hcomma]; rfl, rfl⟩
  by_cases hquote : c = '"'
  · subst hquote
    have hstep : lexStep .between '"' = some (.string [], none) := rfl
    rw [lexFrom_of_step hstep] at h
    obtain ⟨text, inside, behind, htext, rfl⟩ := exists_of_lexFrom_string h
    exact ⟨.string text, '"' :: inside ++ ['"'], behind, ⟨inside, htext, rfl⟩, by simp⟩
  · have hstep : lexStep .between c = none := by
      simp [lexStep, hblank, hopening, hclosing, hcolon, hcomma, hquote]
    rw [lexFrom_of_none hstep] at h
    cases h

theorem lexFrom_blank {blank : Text} (h : IsBlank blank) (rest : Text) :
    lexFrom .between (blank ++ rest) = lexFrom .between rest := by
  induction blank with
  | nil => rfl
  | cons c blank ih =>
    obtain ⟨hc, hblank⟩ := List.forall_mem_cons.1 h
    have hstep : lexStep .between c = some (.between, none) := if_pos (by simpa using hc)
    rw [List.cons_append, lexFrom_of_step hstep, ih hblank]

theorem lexFrom_eq_nil_iff : lexFrom .between t = some [] ↔ IsBlank t := by
  constructor
  · intro h
    induction t with
    | nil => simp [IsBlank]
    | cons c t ih =>
      rcases lexFrom_between_cases h with hc | ⟨token, spelling, rest, hspelled, ht⟩
      · have hblank : IsBlank [c] := by simpa [IsBlank] using hc
        rw [← List.singleton_append, lexFrom_blank hblank] at h
        exact List.forall_mem_cons.2 ⟨hc, ih h⟩
      · rw [ht, lexFrom_token hspelled] at h
        obtain ⟨_, _, hcons⟩ := Option.map_eq_some_iff.1 h
        cases hcons
  · intro h
    have hblank := lexFrom_blank h []
    rwa [List.append_nil] at hblank

theorem lexFrom_eq_cons_iff :
    lexFrom .between t = some (token :: tokens) ↔
      ∃ blank spelling rest, IsBlank blank ∧ token.Spelled spelling ∧
        t = blank ++ spelling ++ rest ∧ lexFrom .between rest = some tokens := by
  constructor
  · intro h
    induction t with
    | nil => cases h
    | cons c t ih =>
      rcases lexFrom_between_cases h with hc | ⟨first, spelling, rest, hspelled, ht⟩
      · have hblank : IsBlank [c] := by simpa [IsBlank] using hc
        rw [← List.singleton_append, lexFrom_blank hblank] at h
        obtain ⟨blank, spelling, rest, hblank, hspelled, rfl, hrest⟩ := ih h
        exact ⟨c :: blank, spelling, rest, List.forall_mem_cons.2 ⟨hc, hblank⟩, hspelled, rfl,
          hrest⟩
      · rw [ht, lexFrom_token hspelled] at h
        obtain ⟨more, hmore, hcons⟩ := Option.map_eq_some_iff.1 h
        obtain ⟨rfl, rfl⟩ := List.cons.inj hcons
        exact ⟨[], spelling, rest, by simp [IsBlank], hspelled, ht, hmore⟩
  · rintro ⟨blank, spelling, rest, hblank, hspelled, rfl, hrest⟩
    rw [List.append_assoc, lexFrom_blank hblank, lexFrom_token hspelled, hrest, Option.map_some]

end Tokens

/-! ### Trees -/

mutual

/-- The tokens of a tree of strings and objects. No other tree has tokens. -/
def Tree.tokens : Tree → List Token
  | .string text => [.string text]
  | .object members => .opening :: Tree.membersTokens members ++ [.closing]
  | _ => []

def Tree.membersTokens : List (Text × Tree) → List Token
  | [] => []
  | (name, tree) :: rest =>
    .string name :: .colon :: tree.tokens ++
      (if rest.isEmpty then [] else .comma :: Tree.membersTokens rest)

end

/-- What is lexed as the tokens of a tree and then as others spells the tree, behind some blanks. -/
def Tree.LexedAsSpelled (tree : Tree) : Prop :=
  ∀ t tokens, lexFrom .between t = some (tree.tokens ++ tokens) ↔
    ∃ blank spelling rest, IsBlank blank ∧ tree.Spelled spelling ∧ t = blank ++ spelling ++ rest ∧
      lexFrom .between rest = some tokens

def LexedAsSpelled (members : List (Text × Tree)) : Prop :=
  ∀ t tokens, lexFrom .between t = some (Tree.membersTokens members ++ .closing :: tokens) ↔
    ∃ inside rest, Tree.membersSpelled members inside ∧ t = inside ++ '\x7d' :: rest ∧
      lexFrom .between rest = some tokens

/-- Behind a member stands the closing mark, or a comma and the others. -/
theorem lexFrom_continued_iff {others : List (Text × Tree)} (hothers : LexedAsSpelled others)
    {t : Text} {tokens : List Token} :
    lexFrom .between t =
        some ((if others.isEmpty then [] else .comma :: Tree.membersTokens others) ++
          .closing :: tokens) ↔
      ∃ blank more rest, IsBlank blank ∧
        Continued others.isEmpty (Tree.membersSpelled others) more ∧
        t = blank ++ more ++ '\x7d' :: rest ∧ lexFrom .between rest = some tokens := by
  cases others with
  | nil =>
    simp only [List.isEmpty_nil, if_true, List.nil_append, Continued]
    rw [lexFrom_eq_cons_iff]
    constructor
    · rintro ⟨blank, _, rest, hblank, rfl, rfl, hrest⟩
      exact ⟨blank, [], rest, hblank, rfl, by simp, hrest⟩
    · rintro ⟨blank, _, rest, hblank, rfl, rfl, hrest⟩
      exact ⟨blank, _, rest, hblank, rfl, by simp, hrest⟩
  | cons member others =>
    simp only [List.isEmpty_cons, Bool.false_eq_true, if_false, List.cons_append, Continued]
    rw [lexFrom_eq_cons_iff]
    constructor
    · rintro ⟨blank, _, rest, hblank, rfl, rfl, hrest⟩
      obtain ⟨inside, behind, hinside, rfl, hbehind⟩ := (hothers ..).1 hrest
      exact ⟨blank, _, behind, hblank, ⟨inside, hinside, rfl⟩, by simp, hbehind⟩
    · rintro ⟨blank, _, rest, hblank, ⟨inside, hinside, rfl⟩, rfl, hrest⟩
      exact ⟨blank, _, _, hblank, rfl, by simp,
        (hothers ..).2 ⟨inside, rest, hinside, rfl, hrest⟩⟩

theorem lexedAsSpelled_members {members : List (Text × Tree)}
    (hmembers : ∀ member ∈ members, member.2.LexedAsSpelled) : LexedAsSpelled members := by
  induction members with
  | nil =>
    intro t tokens
    rw [Tree.membersTokens, List.nil_append, lexFrom_eq_cons_iff]
    constructor
    · rintro ⟨blank, _, rest, hblank, rfl, rfl, hrest⟩
      exact ⟨blank, rest, hblank, by simp, hrest⟩
    · rintro ⟨inside, rest, hinside, rfl, hrest⟩
      exact ⟨inside, _, rest, hinside, rfl, by simp, hrest⟩
  | cons member others ih =>
    intro t tokens
    obtain ⟨name, tree⟩ := member
    obtain ⟨htree, hrest⟩ := List.forall_mem_cons.1 hmembers
    have hothers := ih hrest
    simp only [Tree.membersTokens, List.cons_append, List.append_assoc]
    rw [lexFrom_eq_cons_iff]
    -- a blank belongs to what stands in front of it
    constructor
    · rintro ⟨before, key, _, hbefore, hkey, rfl, hname⟩
      obtain ⟨after, _, _, hafter, rfl, rfl, hcolon⟩ := lexFrom_eq_cons_iff.1 hname
      obtain ⟨before', value, _, hbefore', hvalue, rfl, hmember⟩ := (htree ..).1 hcolon
      obtain ⟨after', more, rest, hafter', hmore, rfl, hbehind⟩ :=
        (lexFrom_continued_iff hothers).1 hmember
      exact ⟨_, rest, ⟨_, _, more, ⟨before, key, after, hbefore, hkey, hafter, rfl⟩,
        ⟨before', value, after', hbefore', hvalue, hafter', rfl⟩, hmore, rfl⟩, by simp, hbehind⟩
    · rintro ⟨_, rest, ⟨_, _, more, ⟨before, key, after, hbefore, hkey, hafter, rfl⟩,
        ⟨before', value, after', hbefore', hvalue, hafter', rfl⟩, hmore, rfl⟩, rfl, hrest⟩
      have hmember := (lexFrom_continued_iff hothers).2
        ⟨after', more, rest, hafter', hmore, rfl, hrest⟩
      have hcolon := (htree ..).2 ⟨before', value, _, hbefore', hvalue, rfl, hmember⟩
      have hname := (@lexFrom_eq_cons_iff _ .colon _).2 ⟨after, _, _, hafter, rfl, rfl, hcolon⟩
      exact ⟨before, key, _, hbefore, hkey, by simp, hname⟩

theorem Tree.OfTexts.lexedAsSpelled {tree : Tree} (h : tree.OfTexts) : tree.LexedAsSpelled := by
  induction h with
  | string text => exact fun t tokens => lexFrom_eq_cons_iff
  | object nested ih =>
    intro t tokens
    simp only [Tree.tokens, List.cons_append, List.append_assoc, List.nil_append]
    rw [lexFrom_eq_cons_iff]
    constructor
    · rintro ⟨blank, _, rest, hblank, rfl, rfl, hrest⟩
      obtain ⟨inside, behind, hinside, rfl, hbehind⟩ := (lexedAsSpelled_members ih ..).1 hrest
      exact ⟨blank, _, behind, hblank, ⟨inside, hinside, rfl⟩, by simp, hbehind⟩
    · rintro ⟨blank, _, rest, hblank, ⟨inside, hinside, rfl⟩, rfl, hrest⟩
      exact ⟨blank, _, _, hblank, rfl, by simp,
        (lexedAsSpelled_members ih ..).2 ⟨inside, rest, hinside, rfl, hrest⟩⟩

/-- **What is lexed as the tokens of a tree is a text of this tree.** -/
theorem lex_eq_some_iff {tree : Tree} (h : tree.OfTexts) {t : Text} :
    lex t = some tree.tokens ↔ tree.IsTextOf t := by
  have htree := h.lexedAsSpelled t []
  rw [List.append_nil] at htree
  rw [lex, htree, Tree.IsTextOf, Padded]
  simp only [lexFrom_eq_nil_iff]
  constructor
  · rintro ⟨before, spelling, after, hbefore, hspelling, rfl, hafter⟩
    exact ⟨before, spelling, after, hbefore, hspelling, hafter, rfl⟩
  · rintro ⟨before, spelling, after, hbefore, hspelling, hafter, rfl⟩
    exact ⟨before, spelling, after, hbefore, hspelling, rfl, hafter⟩

/-! ### Other values

No token begins like a number, an array or a literal name, so a text with such a value in it, at any
depth, has no tokens. -/

/-- Induction over trees, with the hypothesis for every member of an object. -/
@[elab_as_elim]
theorem Tree.objectInduction {motive : Tree → Prop} (tree : Tree) (null : motive .null)
    (boolean : ∀ value, motive (.boolean value)) (number : ∀ numeral, motive (.number numeral))
    (string : ∀ text, motive (.string text)) (array : ∀ elements, motive (.array elements))
    (object : ∀ members, (∀ member ∈ members, motive member.2) → motive (.object members)) :
    motive tree :=
  match tree with
  | .null => null
  | .boolean value => boolean value
  | .number numeral => number numeral
  | .string text => string text
  | .array elements => array elements
  | .object members => object members fun member _ =>
    Tree.objectInduction member.2 null boolean number string array object
termination_by sizeOf tree
decreasing_by
  have hmember := List.sizeOf_lt_of_mem ‹member ∈ members›
  have htree : sizeOf member.2 < sizeOf member := by
    cases member
    simp only [Prod.mk.sizeOf_spec]
    omega
  simp only [Tree.object.sizeOf_spec]
  omega

/-- The blanks, and the characters with which tokens begin. -/
def tokenStarts : List Char := [' ', '\t', '\n', '\r', '\x7b', '\x7d', ':', ',', '"']

theorem lexFrom_of_not_mem_tokenStarts {c : Char} (h : c ∉ tokenStarts) (rest : Text) :
    lexFrom .between (c :: rest) = none := by
  refine lexFrom_of_none ?_ rest
  simp only [tokenStarts, List.mem_cons, List.not_mem_nil, or_false, not_or] at h
  simp [lexStep, h]

theorem IsNumeral.exists_cons {t : Text} (h : IsNumeral t) :
    ∃ c rest, t = c :: rest ∧ (c = '-' ∨ c.isDigit = true) := by
  obtain ⟨sign, whole, fraction, exponent, rfl, hsign, hwhole, -, -⟩ := h
  simp only [List.mem_cons, List.not_mem_nil, or_false] at hsign
  rcases hsign with rfl | rfl
  · rcases hwhole with rfl | ⟨⟨hne, hdigits⟩, -⟩
    · exact ⟨'0', _, rfl, .inr rfl⟩
    · obtain ⟨c, rest, rfl⟩ := List.exists_cons_of_ne_nil hne
      exact ⟨c, _, rfl, .inr (hdigits c List.mem_cons_self)⟩
  · exact ⟨'-', _, rfl, .inl rfl⟩

theorem exists_of_lexFrom_token (token : Token) {spelling rest : Text} {tokens : List Token}
    (hspelled : token.Spelled spelling) (h : lexFrom .between (spelling ++ rest) = some tokens) :
    ∃ more, lexFrom .between rest = some more := by
  rw [lexFrom_token hspelled] at h
  obtain ⟨more, hmore, -⟩ := Option.map_eq_some_iff.1 h
  exact ⟨more, hmore⟩

/-- If the lexer goes on behind a spelling of the tree, there are strings and objects only in the
tree. -/
def Tree.OfTextsIfLexed (tree : Tree) : Prop :=
  ∀ spelling rest tokens, tree.Spelled spelling →
    lexFrom .between (spelling ++ rest) = some tokens →
    tree.OfTexts ∧ ∃ more, lexFrom .between rest = some more

theorem ofTexts_of_lexFrom_members {members : List (Text × Tree)}
    (hmembers : ∀ member ∈ members, member.2.OfTextsIfLexed) {inside rest : Text}
    {tokens : List Token} (hspelled : Tree.membersSpelled members inside)
    (h : lexFrom .between (inside ++ '\x7d' :: rest) = some tokens) :
    (∀ member ∈ members, member.2.OfTexts) ∧ ∃ more, lexFrom .between rest = some more := by
  induction members generalizing inside tokens with
  | nil =>
    have hblank : IsBlank inside := hspelled
    rw [lexFrom_blank hblank, ← List.singleton_append] at h
    exact ⟨by simp, exists_of_lexFrom_token .closing rfl h⟩
  | cons member others ih =>
    obtain ⟨name, tree⟩ := member
    obtain ⟨htree, hothers⟩ := List.forall_mem_cons.1 hmembers
    obtain ⟨_, _, more, ⟨before, key, after, hbefore, hkey, hafter, rfl⟩,
      ⟨before', value, after', hbefore', hvalue, hafter', rfl⟩, hmore, rfl⟩ := hspelled
    simp only [List.append_assoc, List.cons_append] at h
    rw [lexFrom_blank hbefore] at h
    obtain ⟨_, h⟩ := exists_of_lexFrom_token (.string name) hkey h
    rw [lexFrom_blank hafter, ← List.singleton_append] at h
    obtain ⟨_, h⟩ := exists_of_lexFrom_token .colon rfl h
    rw [lexFrom_blank hbefore'] at h
    obtain ⟨hfirst, _, h⟩ := htree _ _ _ hvalue h
    rw [lexFrom_blank hafter'] at h
    cases others with
    | nil =>
      obtain rfl : more = [] := hmore
      have hlast : ∀ member ∈ [(name, tree)], member.2.OfTexts := by simpa using hfirst
      exact ⟨hlast, exists_of_lexFrom_token .closing rfl h⟩
    | cons next others =>
      obtain ⟨inside, hinside, rfl⟩ := hmore
      obtain ⟨_, h⟩ := exists_of_lexFrom_token .comma rfl h
      obtain ⟨hrest, hbehind⟩ := ih hothers hinside h
      exact ⟨List.forall_mem_cons.2 ⟨hfirst, hrest⟩, hbehind⟩

theorem Tree.ofTextsIfLexed (tree : Tree) : tree.OfTextsIfLexed := by
  have hfirst : ∀ {c : Char} {spelling rest : Text} {tokens : List Token} {P : Prop},
      c ∉ tokenStarts → lexFrom .between (c :: spelling ++ rest) = some tokens → P := by
    intro c spelling rest tokens P hc h
    rw [List.cons_append, lexFrom_of_not_mem_tokenStarts hc] at h
    cases h
  intro spelling rest tokens hspelled h
  induction tree using Tree.objectInduction generalizing spelling rest tokens with
  | null =>
    obtain rfl := hspelled
    exact hfirst (by decide) h
  | boolean value =>
    obtain rfl := hspelled
    cases value with
    | false => exact hfirst (by decide) h
    | true => exact hfirst (by decide) h
  | number numeral =>
    obtain ⟨hnumeral, rfl⟩ := hspelled
    obtain ⟨c, numeral, rfl, hc⟩ := hnumeral.exists_cons
    have hstarts : ∀ c ∈ tokenStarts, ¬ (c = '-' ∨ c.isDigit = true) := by simp [tokenStarts]
    exact hfirst (fun hmem => hstarts c hmem hc) h
  | string text => exact ⟨.string text, exists_of_lexFrom_token (.string text) hspelled h⟩
  | array elements =>
    -- refused at its first mark, so nothing is asked of the elements
    obtain ⟨inside, -, rfl⟩ := hspelled
    exact hfirst (by decide) h
  | object members ih =>
    obtain ⟨inside, hinside, rfl⟩ := hspelled
    rw [List.append_assoc, List.cons_append] at h
    obtain ⟨_, h⟩ := exists_of_lexFrom_token .opening rfl h
    obtain ⟨hmembers, hbehind⟩ := ofTexts_of_lexFrom_members ih hinside h
    exact ⟨.object hmembers, hbehind⟩

theorem ofTexts_of_lex {tree : Tree} {t : Text} {tokens : List Token} (htext : tree.IsTextOf t)
    (h : lex t = some tokens) : tree.OfTexts := by
  obtain ⟨before, inside, after, hbefore, hinside, -, rfl⟩ := htext
  rw [lex, List.append_assoc, lexFrom_blank hbefore] at h
  exact (tree.ofTextsIfLexed _ _ _ hinside h).1

end DeadDrop.Json
