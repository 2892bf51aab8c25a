import DeadDrop.Proofs.Text.Numeral
import DeadDrop.Proofs.Text.Trim
import DeadDrop.Time.Duration
import Mathlib.Data.List.Basic
import Mathlib.Data.Nat.Digits.Defs

/-!
# The texts of durations

A duration is a sequence of terms, and a term is a number, in decimal digits, with the letter of a
unit. This says nothing of how a text is read. Reading goes through the text once and carries a total
and the number that has begun, and refuses what leaves the range as soon as it does. Blanks change
neither the total nor the number (`parseFrom_filter`), a term adds its seconds to the total
(`parseFrom_term`), and totals only grow, so that an early refusal is one of the whole sum. In the
other direction, whatever is read to the end is a sequence of terms, with the digits that have been
read standing in front (`exists_terms_of_parseFrom`).

So a text is read exactly if it spells terms whose seconds, summed up without bounds, are between one
and the last of 64 bits (`parse_eq_ok_iff`). No two sequences of terms have the same text.
-/

namespace DeadDrop.Duration

/-! ### Terms -/

inductive TimeUnit where
  | second
  | minute
  | hour
  | day
  deriving DecidableEq, Repr

namespace TimeUnit

def seconds : TimeUnit → Nat
  | second => 1
  | minute => 60
  | hour => 60 * 60
  | day => 24 * 60 * 60

/-- The letter of a unit, in either case. -/
def letters : TimeUnit → List Char
  | second => ['s', 'S']
  | minute => ['m', 'M']
  | hour => ['h', 'H']
  | day => ['d', 'D']

theorem seconds_pos (unit : TimeUnit) : 0 < unit.seconds := by
  cases unit <;> decide

theorem isDigit_of_mem_letters {unit : TimeUnit} {c : Char} (h : c ∈ unit.letters) :
    c.isDigit = false := by
  have hall : ∀ c ∈ unit.letters, c.isDigit = false :=
    List.forall_iff_forall_mem.1 (by cases unit <;> decide)
  exact hall c h

theorem ne_blank_of_mem_letters {unit : TimeUnit} {c : Char} (h : c ∈ unit.letters) : c ≠ ' ' := by
  have hall : ∀ c ∈ unit.letters, c ≠ ' ' :=
    List.forall_iff_forall_mem.1 (by cases unit <;> decide)
  exact hall c h

theorem eq_of_mem_letters {unit unit' : TimeUnit} {c : Char} (h : c ∈ unit.letters)
    (h' : c ∈ unit'.letters) : unit = unit' := by
  have hall : ∀ c ∈ unit.letters, c ∈ unit'.letters → unit = unit' :=
    List.forall_iff_forall_mem.1 (by cases unit <;> cases unit' <;> decide)
  exact hall c h h'

end TimeUnit

/-- A number of one digit or more, and the letter of its unit. -/
structure Term where
  digits : Text
  letter : Char
  unit : TimeUnit
  digits_ne_nil : digits ≠ []
  isDigit_of_mem : ∀ c ∈ digits, c.isDigit = true
  letter_mem : letter ∈ unit.letters

namespace Term

def text (term : Term) : Text := term.digits ++ [term.letter]

def number (term : Term) : Nat :=
  Nat.ofDigits 10 (term.digits.reverse.map fun c => c.toNat - '0'.toNat)

def seconds (term : Term) : Nat := term.number * term.unit.seconds

theorem text_ne_nil (term : Term) : term.text ≠ [] := List.append_ne_nil_of_right_ne_nil _ (by simp)

theorem number_le_seconds (term : Term) : term.number ≤ term.seconds :=
  Nat.le_mul_of_pos_right _ term.unit.seconds_pos

end Term

/-- The seconds of all terms, however many they are. -/
def total (terms : List Term) : Nat := (terms.map Term.seconds).sum

/-- The text without the white space at its ends is that of the terms, with blanks anywhere in it. -/
def Spells (text : Text) (terms : List Term) : Prop :=
  ∃ body, Text.Trimmed Text.isBlank text body ∧
    body.filter (fun c => decide (c ≠ ' ')) = terms.flatMap Term.text

/-! ### Letters -/

theorem unitSeconds?_eq_some_iff {c : Char} {seconds : Nat} :
    unitSeconds? c = some seconds ↔ ∃ unit : TimeUnit, c ∈ unit.letters ∧ unit.seconds = seconds := by
  constructor
  · intro h
    unfold unitSeconds? at h
    split at h
    · exact ⟨.second, by simp [TimeUnit.letters], Option.some.inj h⟩
    · exact ⟨.second, by simp [TimeUnit.letters], Option.some.inj h⟩
    · exact ⟨.minute, by simp [TimeUnit.letters], Option.some.inj h⟩
    · exact ⟨.minute, by simp [TimeUnit.letters], Option.some.inj h⟩
    · exact ⟨.hour, by simp [TimeUnit.letters], Option.some.inj h⟩
    · exact ⟨.hour, by simp [TimeUnit.letters], Option.some.inj h⟩
    · exact ⟨.day, by simp [TimeUnit.letters], Option.some.inj h⟩
    · exact ⟨.day, by simp [TimeUnit.letters], Option.some.inj h⟩
    · cases h
  · rintro ⟨unit, hletter, rfl⟩
    have hall : ∀ c ∈ unit.letters, unitSeconds? c = some unit.seconds :=
      List.forall_iff_forall_mem.1 (by cases unit <;> decide)
    exact hall c hletter

/-! ### Reading -/

section Reading

variable {input : Text} {sum seconds : Nat} {pending : Option Nat}

theorem parseFrom_digit {c : Char} (h : c.isDigit = true) (rest : Text) :
    parseFrom input sum pending (c :: rest) =
      parseFrom input sum (some (pending.getD 0 * 10 + (c.toNat - '0'.toNat))) rest := by
  rw [parseFrom.eq_def]
  simp only [Text.digit?_of_isDigit h]

/-- A blank is passed over, also between the digits of a number. -/
theorem parseFrom_blank (rest : Text) :
    parseFrom input sum pending (' ' :: rest) = parseFrom input sum pending rest := by
  have hdigit : Text.digit? ' ' = none := Text.digit?_of_not_isDigit (by decide)
  rw [parseFrom.eq_def]
  simp only [hdigit, if_true]

theorem parseFrom_letter {c : Char} (hdigit : c.isDigit = false) (hblank : c ≠ ' ') (rest : Text) :
    parseFrom input sum pending (c :: rest) =
      match unitSeconds? c, pending with
      | none, _ => .error (.badCharacter c input)
      | some _, none => .error (.missingNumber c input)
      | some seconds, some number =>
        if limit ≤ number then .error (.badNumber input)
        else if limit ≤ sum + number * seconds then .error (.tooLarge input)
        else parseFrom input (sum + number * seconds) none rest := by
  rw [parseFrom.eq_def]
  dsimp only
  rw [Text.digit?_of_not_isDigit hdigit]
  exact if_neg hblank

theorem parseFrom_filter (t : Text) :
    parseFrom input sum pending t =
      parseFrom input sum pending (t.filter fun c => decide (c ≠ ' ')) := by
  induction t generalizing sum pending with
  | nil => rfl
  | cons c rest ih =>
    by_cases hblank : c = ' '
    · rw [hblank, parseFrom_blank, ih, List.filter_cons_of_neg (by simp)]
    · rw [List.filter_cons_of_pos (by simp [hblank])]
      cases hdigit : c.isDigit with
      | true => rw [parseFrom_digit hdigit, parseFrom_digit hdigit, ih]
      | false =>
        rw [parseFrom_letter hdigit hblank, parseFrom_letter hdigit hblank]
        split
        · rfl
        · rfl
        · rw [ih]

theorem parseFrom_digits {digits : Text} (hne : digits ≠ [])
    (hdigits : ∀ c ∈ digits, c.isDigit = true) (rest : Text) :
    parseFrom input sum pending (digits ++ rest) =
      parseFrom input sum
        (some (pending.getD 0 * 10 ^ digits.length +
          Nat.ofDigits 10 (digits.reverse.map fun c => c.toNat - '0'.toNat))) rest := by
  induction digits generalizing pending with
  | nil => exact absurd rfl hne
  | cons c digits ih =>
    rw [List.cons_append, parseFrom_digit (hdigits c List.mem_cons_self)]
    -- the first digit weighs as much as the number of those behind it says
    have hvalue : Nat.ofDigits 10 ((c :: digits).reverse.map fun c => c.toNat - '0'.toNat) =
        Nat.ofDigits 10 (digits.reverse.map fun c => c.toNat - '0'.toNat) +
          10 ^ digits.length * (c.toNat - '0'.toNat) := by
      rw [List.reverse_cons, List.map_append, Nat.ofDigits_append, List.length_map,
        List.length_reverse, List.map_singleton, Nat.ofDigits_singleton]
    cases digits with
    | nil => simp
    | cons next digits =>
      rw [ih (by simp) fun d hd => hdigits d (List.mem_cons_of_mem _ hd), hvalue, Option.getD_some]
      congr 2
      rw [List.length_cons (a := c), Nat.pow_succ]
      ring

/-- A term adds its seconds to the total. It is refused if they do not fit, and its number fits if
they do. -/
theorem parseFrom_term (term : Term) (rest : Text) :
    parseFrom input sum none (term.text ++ rest) = .ok seconds ↔
      sum + term.seconds < limit ∧
        parseFrom input (sum + term.seconds) none rest = .ok seconds := by
  have hnumber := term.number_le_seconds
  have hread : parseFrom input sum none (term.text ++ rest) =
      if limit ≤ term.number then .error (.badNumber input)
      else if limit ≤ sum + term.seconds then .error (.tooLarge input)
      else parseFrom input (sum + term.seconds) none rest := by
    have hunit := unitSeconds?_eq_some_iff.2 ⟨term.unit, term.letter_mem, rfl⟩
    rw [Term.text, List.append_assoc, parseFrom_digits term.digits_ne_nil term.isDigit_of_mem,
      List.singleton_append, parseFrom_letter (TimeUnit.isDigit_of_mem_letters term.letter_mem)
        (TimeUnit.ne_blank_of_mem_letters term.letter_mem), hunit, Option.getD_none, Nat.zero_mul,
      Nat.zero_add]
    rfl
  rw [hread]
  by_cases hfits : limit ≤ sum + term.seconds
  · rw [if_pos hfits]
    refine iff_of_false ?_ fun h => absurd h.1 (Nat.not_lt.2 hfits)
    split <;> simp
  · rw [if_neg hfits, if_neg (by omega)]
    exact (and_iff_right (Nat.lt_of_not_le hfits)).symm

theorem parseFrom_terms (terms : List Term) (hsum : sum < limit) :
    parseFrom input sum none (terms.flatMap Term.text) = .ok seconds ↔
      sum + total terms < limit ∧ sum + total terms = seconds := by
  induction terms generalizing sum with
  | nil =>
    change Except.ok sum = Except.ok seconds ↔ _
    rw [Except.ok.injEq]
    exact (and_iff_right hsum).symm
  | cons term terms ih =>
    have htotal : sum + total (term :: terms) = sum + term.seconds + total terms := by
      rw [total, List.map_cons, List.sum_cons, ← Nat.add_assoc]
      rfl
    rw [List.flatMap_cons, parseFrom_term, htotal]
    constructor
    · rintro ⟨hfits, hread⟩
      exact (ih hfits).1 hread
    · rintro ⟨hfits, heq⟩
      have hterm : sum + term.seconds < limit := Nat.lt_of_le_of_lt (Nat.le_add_right _ _) hfits
      exact ⟨hterm, (ih hterm).2 ⟨hfits, heq⟩⟩

/-- What is read to the end is a sequence of terms. The digits in front are those of the number that
has begun. -/
theorem exists_terms_of_parseFrom {digits t : Text} (hdigits : ∀ c ∈ digits, c.isDigit = true)
    (hpending : pending.isSome = true ↔ digits ≠ []) (ht : ' ' ∉ t)
    (h : parseFrom input sum pending t = .ok seconds) :
    ∃ terms : List Term, digits ++ t = terms.flatMap Term.text := by
  induction t generalizing sum pending digits with
  | nil =>
    rw [parseFrom] at h
    split at h
    · rename_i hnone
      refine ⟨[], ?_⟩
      have hempty : digits = [] := by
        by_contra hne
        rw [Option.isNone_iff_eq_none.1 hnone] at hpending
        exact absurd (hpending.2 hne) (by simp)
      rw [hempty]
      rfl
    · cases h
  | cons c rest ih =>
    have hrest : ' ' ∉ rest := fun hmem => ht (List.mem_cons_of_mem _ hmem)
    have hblank : c ≠ ' ' := fun heq => ht (heq ▸ List.mem_cons_self)
    cases hdigit : c.isDigit with
    | true =>
      rw [parseFrom_digit hdigit] at h
      have hmore : ∀ d ∈ digits ++ [c], d.isDigit = true := by
        simpa [or_imp, forall_and, hdigit] using hdigits
      obtain ⟨terms, hterms⟩ := ih hmore (by simp) hrest h
      exact ⟨terms, by rw [← hterms, List.append_assoc, List.singleton_append]⟩
    | false =>
      rw [parseFrom_letter hdigit hblank] at h
      split at h
      · cases h
      · cases h
      · rename_i unit number hunit
        obtain ⟨unit, hletter, -⟩ := unitSeconds?_eq_some_iff.1 hunit
        split at h
        · cases h
        · split at h
          · cases h
          · -- the letter ends a term, and behind it no number has begun
            obtain ⟨terms, hterms⟩ := @ih _ none [] (by simp) (by simp) hrest h
            let term : Term := ⟨digits, c, unit, hpending.1 rfl, hdigits, hletter⟩
            refine ⟨term :: terms, ?_⟩
            rw [List.flatMap_cons, ← hterms]
            simp [Term.text, term]

end Reading

/-! ### Spellings -/

theorem Term.text_append_inj {term term' : Term} {rest rest' : Text}
    (h : term.text ++ rest = term'.text ++ rest') : term = term' ∧ rest = rest' := by
  -- the digits end where the first letter stands
  have hspan : ∀ (term : Term) (rest : Text),
      (term.text ++ rest).takeWhile Char.isDigit = term.digits := by
    intro term rest
    have hletter : ¬ term.letter.isDigit = true := by
      simp [TimeUnit.isDigit_of_mem_letters term.letter_mem]
    rw [Term.text, List.append_assoc, List.takeWhile_append_of_pos term.isDigit_of_mem,
      List.singleton_append, List.takeWhile_cons_of_neg hletter, List.append_nil]
  have hdigits : term.digits = term'.digits := by rw [← hspan term rest, h, hspan]
  rw [Term.text, Term.text, hdigits, List.append_assoc, List.append_assoc] at h
  obtain ⟨hletter, hrest⟩ := List.cons.inj (List.append_cancel_left h)
  have hunit := TimeUnit.eq_of_mem_letters term.letter_mem (hletter ▸ term'.letter_mem)
  obtain ⟨digits, letter, unit, _, _, _⟩ := term
  obtain ⟨digits', letter', unit', _, _, _⟩ := term'
  obtain rfl : digits = digits' := hdigits
  obtain rfl : letter = letter' := hletter
  obtain rfl : unit = unit' := hunit
  exact ⟨rfl, hrest⟩

theorem flatMap_text_injective : Function.Injective fun terms : List Term => terms.flatMap Term.text := by
  intro terms terms' h
  induction terms generalizing terms' with
  | nil =>
    cases terms' with
    | nil => rfl
    | cons term' terms' =>
      simp only [List.flatMap_nil, List.flatMap_cons] at h
      exact absurd h.symm (List.append_ne_nil_of_left_ne_nil term'.text_ne_nil _)
  | cons term terms ih =>
    cases terms' with
    | nil =>
      simp only [List.flatMap_nil, List.flatMap_cons] at h
      exact absurd h (List.append_ne_nil_of_left_ne_nil term.text_ne_nil _)
    | cons term' terms' =>
      simp only [List.flatMap_cons] at h
      obtain ⟨rfl, hrest⟩ := Term.text_append_inj h
      rw [ih hrest]

theorem spells_iff {text : Text} {terms : List Term} :
    Spells text terms ↔
      (text.trim Text.isBlank).filter (fun c => decide (c ≠ ' ')) = terms.flatMap Term.text := by
  constructor
  · rintro ⟨body, hbody, hterms⟩
    rwa [Text.trim_eq_iff.2 hbody]
  · exact fun hterms => ⟨_, Text.trimmed_trim _ _, hterms⟩

theorem Spells.unique {text : Text} {terms terms' : List Term} (h : Spells text terms)
    (h' : Spells text terms') : terms = terms' :=
  flatMap_text_injective ((spells_iff.1 h).symm.trans (spells_iff.1 h'))

theorem parse_eq_ok_iff_parseFrom {text : Text} {seconds : Nat} :
    parse text = .ok seconds ↔
      parseFrom (text.trim Text.isBlank) 0 none (text.trim Text.isBlank) = .ok seconds ∧
        0 < seconds := by
  unfold parse
  simp only
  split
  · -- an empty text has no terms, and a total of zero
    rename_i hempty
    rw [List.isEmpty_iff.1 hempty]
    refine iff_of_false (by simp) ?_
    rintro ⟨hread, hpos⟩
    obtain rfl : 0 = seconds := Except.ok.inj hread
    exact Nat.lt_irrefl 0 hpos
  · split
    · rename_i hread
      simp [hread]
    · rename_i sum hread
      rw [hread]
      split
      · rename_i hzero
        simp only [hzero, Except.ok.injEq]
        refine iff_of_false (by simp) ?_
        rintro ⟨rfl, hpos⟩
        exact Nat.lt_irrefl 0 hpos
      · rename_i hzero
        rw [Except.ok.injEq]
        constructor
        · rintro rfl
          exact ⟨rfl, Nat.pos_of_ne_zero hzero⟩
        · exact And.left

theorem exists_terms_of_parse {text : Text} {seconds : Nat} (h : parse text = .ok seconds) :
    ∃ terms, Spells text terms ∧ total terms = seconds ∧ 0 < seconds ∧ seconds < limit := by
  obtain ⟨hread, hpos⟩ := parse_eq_ok_iff_parseFrom.1 h
  have hblank : ' ' ∉ (text.trim Text.isBlank).filter fun c => decide (c ≠ ' ') := by simp
  rw [parseFrom_filter] at hread
  obtain ⟨terms, hterms⟩ :=
    @exists_terms_of_parseFrom _ _ _ _ [] _ (by simp) (by simp) hblank hread
  rw [List.nil_append] at hterms
  rw [hterms, parseFrom_terms terms (by decide), Nat.zero_add] at hread
  obtain ⟨hfits, rfl⟩ := hread
  exact ⟨terms, spells_iff.2 hterms, rfl, hpos, hfits⟩

theorem parse_of_spells {text : Text} {terms : List Term} (h : Spells text terms)
    (hpos : 0 < total terms) (hfits : total terms < limit) : parse text = .ok (total terms) := by
  rw [parse_eq_ok_iff_parseFrom, parseFrom_filter, spells_iff.1 h,
    parseFrom_terms terms (by decide), Nat.zero_add]
  exact ⟨⟨hfits, rfl⟩, hpos⟩

/-- **The texts of durations.** A text is read as a number of seconds exactly if it spells terms, one
or more, whose sum is this number and fits 64 bits. Sums are those of the natural numbers, and the
terms of a text are determined. -/
theorem parse_eq_ok_iff (text : Text) :
    (∀ seconds, parse text = .ok seconds ↔
      ∃ terms, terms ≠ [] ∧ Spells text terms ∧ total terms = seconds ∧ 1 ≤ seconds ∧
        seconds ≤ 2 ^ 64 - 1) ∧
    ∀ terms terms', Spells text terms → Spells text terms' → terms = terms' := by
  have hlimit : limit = 2 ^ 64 := rfl
  refine ⟨fun seconds => ⟨fun h => ?_, ?_⟩, fun _ _ => Spells.unique⟩
  · obtain ⟨terms, hspells, hsum, hpos, hfits⟩ := exists_terms_of_parse h
    refine ⟨terms, ?_, hspells, hsum, hpos, by omega⟩
    rintro rfl
    rw [← hsum] at hpos
    exact absurd hpos (by decide)
  · rintro ⟨terms, -, hspells, rfl, hpos, hfits⟩
    exact parse_of_spells hspells hpos (by omega)

/-- Ten hours and thirty minutes, with a blank within a number, zeros in front of another, and white
space around. -/
def sampleTerms : List Term :=
  [⟨"10".toList, 'H', .hour, by decide, List.forall_iff_forall_mem.1 (by decide), by decide⟩,
    ⟨"0030".toList, 'm', .minute, by decide, List.forall_iff_forall_mem.1 (by decide), by decide⟩]

theorem parse_eq_ok_iff_sample :
    let text := "\t1 0H 0030m\n".toList
    Spells text sampleTerms ∧ parse text = .ok 37800 ∧
      ∀ terms, Spells text terms → terms = sampleTerms := by
  intro text
  have hspells : Spells text sampleTerms := spells_iff.2 (by decide)
  obtain ⟨hread, hunique⟩ := parse_eq_ok_iff text
  refine ⟨hspells, (hread 37800).2 ⟨sampleTerms, by simp [sampleTerms], hspells, ?_⟩,
    fun terms hterms => hunique terms sampleTerms hterms hspells⟩
  decide

/-- The largest duration, one second more, a number that is too large by itself, and a sum of zero. -/
example : ["18446744073709551615s", "18446744073709551615s1s", "18446744073709551616s", "0d00h"].map
    (fun text => (parse text.toList).toOption) = [some 18446744073709551615, none, none, none] := by
  decide

end DeadDrop.Duration
