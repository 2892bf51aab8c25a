import DeadDrop.Json.Token
import DeadDrop.Proofs.Json.Grammar
import DeadDrop.Proofs.Text.Utf8
import Mathlib.Tactic.SplitIfs

/-!
# Lexing strings

The lexer takes what spells a text for this text (`lexFrom_chars`), and a string that it takes to
the end is spelled (`exists_of_lexFrom_string`). Behind a quotation mark it stands either in front
of the other one or in front of the spelling of one character (`lexFrom_string_cases`), whose code
may be that of two surrogates.
-/

namespace DeadDrop

namespace Hex

theorem digit?_digitChar : ∀ n < 16, digit? (Nat.digitChar n) = some n := by decide

theorem eq_of_offset {c first : Char} {count : Nat} {letter : Nat → Char}
    (hletter : ∀ n < count, Char.ofNat (first.toNat + n) = letter n)
    (hfirst : first.toNat ≤ c.toNat) (hcount : c.toNat - first.toNat < count) :
    c = letter (c.toNat - first.toNat) := by
  rw [← hletter _ hcount, Nat.add_sub_cancel' hfirst, Char.ofNat_toNat]

theorem digit?_eq_some_iff {c : Char} {value : Nat} :
    digit? c = some value ↔ Json.HexDigit c value := by
  constructor
  · intro h
    unfold digit? at h
    split at h
    next hnumber =>
      have hc : '0'.toNat ≤ c.toNat ∧ c.toNat ≤ '0'.toNat + 9 := hnumber
      obtain rfl := Option.some.inj h
      exact ⟨by omega, .inl (@eq_of_offset c '0' 10 _ (by decide) hc.1 (by omega))⟩
    next =>
    split at h
    next hlower =>
      have hc : 'a'.toNat ≤ c.toNat ∧ c.toNat ≤ 'a'.toNat + 5 := hlower
      obtain rfl := Option.some.inj h
      have hletter : ∀ n < 6, Char.ofNat ('a'.toNat + n) = Nat.digitChar (n + 10) := by decide
      exact ⟨by omega, .inl (eq_of_offset hletter hc.1 (by omega))⟩
    next =>
    split at h
    next hupper =>
      have hc : 'A'.toNat ≤ c.toNat ∧ c.toNat ≤ 'A'.toNat + 5 := hupper
      obtain rfl := Option.some.inj h
      have hletter : ∀ n < 6,
          Char.ofNat ('A'.toNat + n) = (Nat.digitChar (n + 10)).toUpper := by decide
      exact ⟨by omega, .inr (eq_of_offset hletter hc.1 (by omega))⟩
    next => cases h
  · have hupper : ∀ n < 16, digit? n.digitChar.toUpper = some n := by decide
    rintro ⟨hvalue, rfl | rfl⟩
    · exact digit?_digitChar value hvalue
    · exact hupper value hvalue

end Hex

namespace Json

/-! ### One character -/

section Step

variable {mode next : LexMode} {c : Char} {token : Token} {rest : Text} {tokens : List Token}

theorem lexFrom_of_step (h : lexStep mode c = some (next, none))
    (rest : Text) : lexFrom mode (c :: rest) = lexFrom next rest := by
  rw [lexFrom, h]

theorem lexFrom_of_token (h : lexStep mode c = some (next, some token)) (rest : Text) :
    lexFrom mode (c :: rest) = (lexFrom next rest).map (token :: ·) := by
  rw [lexFrom, h]

theorem lexFrom_of_none (h : lexStep mode c = none) (rest : Text) :
    lexFrom mode (c :: rest) = none := by
  rw [lexFrom, h]

theorem lexFrom_nil (h : mode ≠ .between) : lexFrom mode [] = none := by
  cases mode with
  | between => exact absurd rfl h
  | _ => rfl

theorem exists_of_lexFrom_mark {mark : Char} (hmode : mode ≠ .between)
    (hstep : ∀ c, lexStep mode c = if c = mark then some (next, none) else none) {t : Text}
    (h : lexFrom mode t = some tokens) :
    ∃ rest, t = mark :: rest ∧ lexFrom next rest = some tokens := by
  cases t with
  | nil =>
    rw [lexFrom_nil hmode] at h
    cases h
  | cons c rest =>
    by_cases hc : c = mark
    · subst hc
      rw [lexFrom_of_step ((hstep c).trans (if_pos rfl))] at h
      exact ⟨rest, rfl, h⟩
    · rw [lexFrom_of_none ((hstep c).trans (if_neg hc))] at h
      cases h

end Step

section Strings

variable {reversed t : Text} {high : Option Nat} {tokens : List Token}

/-! ### Codes -/

theorem lexFrom_digit {c : Char} {digit : Nat} (h : HexDigit c digit) (owed value : Nat)
    (rest : Text) :
    lexFrom (.code reversed high (owed + 2) value) (c :: rest) =
      lexFrom (.code reversed high (owed + 1) (value * 16 + digit)) rest := by
  refine lexFrom_of_step ?_ rest
  simp [lexStep, Hex.digit?_eq_some_iff.2 h]

theorem lexFrom_lastDigit {c : Char} {digit : Nat} (h : HexDigit c digit) (value : Nat)
    (rest : Text) :
    lexFrom (.code reversed high 1 value) (c :: rest) =
      (endCode reversed high (value * 16 + digit)).bind fun next => lexFrom next rest := by
  have hstep : lexStep (.code reversed high 1 value) c =
      (endCode reversed high (value * 16 + digit)).map (·, none) := by
    simp [lexStep, Hex.digit?_eq_some_iff.2 h]
  cases hend : endCode reversed high (value * 16 + digit) with
  | none =>
    rw [hend] at hstep
    exact lexFrom_of_none hstep rest
  | some next =>
    rw [hend] at hstep
    exact lexFrom_of_step hstep rest

theorem lexFrom_code {code : Nat} {digits : Text} (h : CodeSpelled code digits) (rest : Text) :
    lexFrom (.code reversed high 4 0) (digits ++ rest) =
      (endCode reversed high code).bind fun next => lexFrom next rest := by
  obtain ⟨a, b, c, d, hdigits, rfl⟩ := h
  cases hdigits with | cons ha hdigits =>
  cases hdigits with | cons hb hdigits =>
  cases hdigits with | cons hc hdigits =>
  cases hdigits with | cons hd hdigits =>
  cases hdigits
  simp only [List.cons_append, List.nil_append]
  rw [lexFrom_digit ha, lexFrom_digit hb, lexFrom_digit hc, lexFrom_lastDigit hd, Nat.zero_mul,
    Nat.zero_add]

theorem exists_of_lexFrom_digit {owed value : Nat}
    (h : lexFrom (.code reversed high owed value) t = some tokens) :
    ∃ c digit rest, HexDigit c digit ∧ t = c :: rest := by
  cases t with
  | nil => cases h
  | cons c rest =>
    cases hc : Hex.digit? c with
    | none =>
      have hstep : lexStep (.code reversed high owed value) c = none := by simp [lexStep, hc]
      rw [lexFrom_of_none hstep] at h
      cases h
    | some digit => exact ⟨c, digit, rest, Hex.digit?_eq_some_iff.1 hc, rfl⟩

theorem exists_of_lexFrom_code (h : lexFrom (.code reversed high 4 0) t = some tokens) :
    ∃ code digits rest, CodeSpelled code digits ∧ t = digits ++ rest ∧
      ∃ next, endCode reversed high code = some next ∧ lexFrom next rest = some tokens := by
  obtain ⟨_, a, t, ha, rfl⟩ := exists_of_lexFrom_digit h
  rw [lexFrom_digit ha] at h
  obtain ⟨_, b, t, hb, rfl⟩ := exists_of_lexFrom_digit h
  rw [lexFrom_digit hb] at h
  obtain ⟨_, c, t, hc, rfl⟩ := exists_of_lexFrom_digit h
  rw [lexFrom_digit hc] at h
  obtain ⟨_, d, rest, hd, rfl⟩ := exists_of_lexFrom_digit h
  rw [lexFrom_lastDigit hd, Nat.zero_mul, Nat.zero_add] at h
  have hdigits := List.Forall₂.cons ha (.cons hb (.cons hc (.cons hd .nil)))
  exact ⟨_, _, rest, ⟨a, b, c, d, hdigits, rfl⟩, rfl, Option.bind_eq_some_iff.1 h⟩

/-! ### Characters -/

theorem letterEscape?_eq_some_iff {letter c : Char} :
    letterEscape? letter = some c ↔ (letter, c) ∈ letterEscapes := by
  constructor
  · intro h
    unfold letterEscape? at h
    split at h
    case h_9 => cases h
    all_goals
      obtain rfl := Option.some.inj h
      decide
  · have hall : ∀ escape ∈ letterEscapes, letterEscape? escape.1 = some escape.2 :=
      List.forall_iff_forall_mem.1 (by decide)
    exact hall (letter, c)

theorem lt_of_codeSpelled {code : Nat} {digits : Text} (h : CodeSpelled code digits) :
    code < 0x10000 := by
  obtain ⟨a, b, c, d, hdigits, rfl⟩ := h
  cases hdigits with | cons ha hdigits =>
  cases hdigits with | cons hb hdigits =>
  cases hdigits with | cons hc hdigits =>
  cases hdigits with | cons hd _ =>
  have ha := ha.1
  have hb := hb.1
  have hc := hc.1
  have hd := hd.1
  omega

/-- The lexer takes the spelling of a character for this character. -/
theorem lexFrom_char {c : Char} {first : Text} (h : CharSpelled c first) (reversed rest : Text) :
    lexFrom (.string reversed) (first ++ rest) = lexFrom (.string (c :: reversed)) rest := by
  have hsolidus : ∀ rest, lexFrom (.string reversed) ('\\' :: rest) =
      lexFrom (.escape reversed) rest := lexFrom_of_step rfl
  have hcode : ∀ rest, lexFrom (.escape reversed) ('u' :: rest) =
      lexFrom (.code reversed none 4 0) rest := lexFrom_of_step rfl
  have hc : c.toNat < 0xD800 ∨ 0xDFFF < c.toNat ∧ c.toNat < 0x110000 := c.valid
  cases h with
  | plain noControl noQuote noSolidus =>
    have hstep : lexStep (.string reversed) c = some (.string (c :: reversed), none) := by
      simp [lexStep, noQuote, noSolidus, noControl]
    rw [List.singleton_append, lexFrom_of_step hstep]
  | @letter letter escape =>
    have hstep : lexStep (.escape reversed) letter = some (.string (c :: reversed), none) := by
      have hu : letter ≠ 'u' := by
        rintro rfl
        simp [letterEscapes] at escape
      simp [lexStep, hu, letterEscape?_eq_some_iff.2 escape]
    rw [List.cons_append, List.cons_append, hsolidus, lexFrom_of_step hstep, List.nil_append]
  | code code =>
    have hlt := lt_of_codeSpelled code
    have hend : endCode reversed none c.toNat = some (.string (c :: reversed)) := by
      rw [endCode, if_neg (by omega), if_neg (by omega), Char.ofNat_toNat]
    rw [List.cons_append, List.cons_append, hsolidus, hcode, lexFrom_code code, hend,
      Option.bind_some]
  | @pair digits digits' beyond high low =>
    have hhigh : endCode reversed none (0xD800 + (c.toNat - 0x10000) / 0x400) =
        some (.pairSolidus reversed (0xD800 + (c.toNat - 0x10000) / 0x400)) := by
      rw [endCode, if_pos (by omega)]
    have hlow : endCode reversed (some (0xD800 + (c.toNat - 0x10000) / 0x400))
        (0xDC00 + (c.toNat - 0x10000) % 0x400) = some (.string (c :: reversed)) := by
      have hback : 0x10000 + (0xD800 + (c.toNat - 0x10000) / 0x400 - 0xD800) * 0x400 +
          (0xDC00 + (c.toNat - 0x10000) % 0x400 - 0xDC00) = c.toNat := by omega
      rw [endCode, if_pos (by omega), hback, Char.ofNat_toNat]
    have hpair : ∀ high rest, lexFrom (.pairSolidus reversed high) ('\\' :: 'u' :: rest) =
        lexFrom (.code reversed (some high) 4 0) rest := fun _ _ => rfl
    simp only [List.cons_append, List.append_assoc]
    rw [hsolidus, hcode, lexFrom_code high, hhigh, Option.bind_some, hpair, lexFrom_code low, hlow,
      Option.bind_some]

/-- Behind the code of a high surrogate stands that of a low one, and both are one character. -/
theorem exists_of_lexFrom_pair {code : Nat} (hcode : 0xD800 ≤ code ∧ code < 0xDC00) {t : Text}
    (h : lexFrom (.pairSolidus reversed code) t = some tokens) :
    ∃ c digits rest, 0x10000 ≤ c.toNat ∧ code = 0xD800 + (c.toNat - 0x10000) / 0x400 ∧
      CodeSpelled (0xDC00 + (c.toNat - 0x10000) % 0x400) digits ∧
      t = '\\' :: 'u' :: (digits ++ rest) ∧
      lexFrom (.string (c :: reversed)) rest = some tokens := by
  obtain ⟨t, rfl, hletter⟩ := exists_of_lexFrom_mark (by simp) (fun _ => rfl) h
  obtain ⟨t, rfl, hdigits⟩ := exists_of_lexFrom_mark (by simp) (fun _ => rfl) hletter
  obtain ⟨low, digits, rest, hlow, rfl, next, hend, hnext⟩ := exists_of_lexFrom_code hdigits
  unfold endCode at hend
  dsimp only at hend
  split_ifs at hend with hrange
  obtain rfl := Option.some.inj hend
  have hc := @Text.toNat_ofNat (0x10000 + (code - 0xD800) * 0x400 + (low - 0xDC00)) (by omega)
  have hback : 0xDC00 + (0x10000 + (code - 0xD800) * 0x400 + (low - 0xDC00) - 0x10000) % 0x400 =
      low := by omega
  refine ⟨_, digits, rest, by omega, by omega, ?_, rfl, hnext⟩
  rwa [hc, hback]

theorem exists_of_lexFrom_escape {t : Text} (h : lexFrom (.escape reversed) t = some tokens) :
    ∃ c spelling rest, CharSpelled c ('\\' :: spelling) ∧ t = spelling ++ rest ∧
      lexFrom (.string (c :: reversed)) rest = some tokens := by
  cases t with
  | nil => cases h
  | cons letter t =>
    by_cases hu : letter = 'u'
    · subst hu
      have hstep : lexStep (.escape reversed) 'u' = some (.code reversed none 4 0, none) := rfl
      rw [lexFrom_of_step hstep] at h
      obtain ⟨code, digits, rest, hdigits, rfl, next, hend, hnext⟩ := exists_of_lexFrom_code h
      have hlt := lt_of_codeSpelled hdigits
      unfold endCode at hend
      dsimp only at hend
      split_ifs at hend with hhigh hlow
      · obtain rfl := Option.some.inj hend
        obtain ⟨c, digits', rest, hbeyond, rfl, hdigits', rfl, hrest⟩ :=
          exists_of_lexFrom_pair hhigh hnext
        exact ⟨c, _, rest, .pair hbeyond hdigits hdigits', by simp, hrest⟩
      · obtain rfl := Option.some.inj hend
        have hc := @Text.toNat_ofNat code (by omega)
        exact ⟨_, 'u' :: digits, rest, .code (hc.symm ▸ hdigits), rfl, hnext⟩
    · cases hletter : letterEscape? letter with
      | none =>
        have hstep : lexStep (.escape reversed) letter = none := by simp [lexStep, hu, hletter]
        rw [lexFrom_of_none hstep] at h
        cases h
      | some c =>
        have hstep : lexStep (.escape reversed) letter = some (.string (c :: reversed), none) := by
          simp [lexStep, hu, hletter]
        rw [lexFrom_of_step hstep] at h
        exact ⟨c, [letter], t, .letter (letterEscape?_eq_some_iff.1 hletter), rfl, h⟩

/-- In a string, the lexer stands in front of the end of it or in front of a character. -/
theorem lexFrom_string_cases {t : Text} (h : lexFrom (.string reversed) t = some tokens) :
    (∃ rest, t = '"' :: rest) ∨ ∃ c first rest, CharSpelled c first ∧ t = first ++ rest ∧
      lexFrom (.string (c :: reversed)) rest = some tokens := by
  cases t with
  | nil => cases h
  | cons c t =>
    by_cases hquote : c = '"'
    · exact .inl ⟨t, by rw [hquote]⟩
    refine .inr ?_
    by_cases hsolidus : c = '\\'
    · subst hsolidus
      rw [lexFrom_of_step rfl] at h
      obtain ⟨c, spelling, rest, hc, rfl, hrest⟩ := exists_of_lexFrom_escape h
      exact ⟨c, _, rest, hc, rfl, hrest⟩
    by_cases hcontrol : c.toNat < 0x20
    · have hstep : lexStep (.string reversed) c = none := by
        simp [lexStep, hquote, hsolidus, hcontrol]
      rw [lexFrom_of_none hstep] at h
      cases h
    · have hc : CharSpelled c [c] := .plain (Nat.le_of_not_lt hcontrol) hquote hsolidus
      refine ⟨c, [c], t, hc, rfl, ?_⟩
      rwa [← List.singleton_append, lexFrom_char hc] at h

theorem ne_nil_of_charSpelled {c : Char} {first : Text} (h : CharSpelled c first) :
    first ≠ [] := by
  cases h <;> simp

/-- A string ends at the first quotation mark that is not escaped. -/
theorem exists_of_lexFrom_string {t : Text} (h : lexFrom (.string reversed) t = some tokens) :
    ∃ text inside rest, CharsSpelled text inside ∧ t = inside ++ '"' :: rest := by
  -- the text in front gets shorter by the spelling of a character
  induction hn : t.length using Nat.strongRecOn generalizing t reversed with
  | ind n ih =>
    rcases lexFrom_string_cases h with ⟨rest, rfl⟩ | ⟨c, first, rest, hc, rfl, hrest⟩
    · exact ⟨[], [], rest, rfl, rfl⟩
    · have hshorter : rest.length < n := by
        have hfirst := List.length_pos_iff.2 (ne_nil_of_charSpelled hc)
        rw [← hn, List.length_append]
        omega
      obtain ⟨text, inside, rest, htext, rfl⟩ := ih _ hshorter hrest rfl
      exact ⟨c :: text, first ++ inside, rest, ⟨first, inside, hc, htext, rfl⟩, by simp⟩

theorem lexFrom_chars {text inside : Text} (h : CharsSpelled text inside) (reversed rest : Text) :
    lexFrom (.string reversed) (inside ++ rest) =
      lexFrom (.string (text.reverse ++ reversed)) rest := by
  induction text generalizing reversed inside with
  | nil =>
    obtain rfl : inside = [] := h
    rfl
  | cons c text ih =>
    obtain ⟨first, inside, hc, htext, rfl⟩ := h
    rw [List.append_assoc, lexFrom_char hc, ih htext, List.reverse_cons, List.append_assoc,
      List.singleton_append]

end Strings

end Json

end DeadDrop
