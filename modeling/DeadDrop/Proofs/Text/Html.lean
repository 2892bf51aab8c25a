import DeadDrop.Proofs.Text.Numeral
import DeadDrop.Text.Html
import DeadDrop.Time.Moment
import Mathlib.Tactic.SplitIfs

/-!
# Text that is inert in HTML

Text is inert if none of the characters with a meaning in HTML stands in it, and every ampersand in
it begins one of the five references that the escapes write. Whether an ampersand does is decided by
what follows it, so inertness is said suffix by suffix, and it is kept when inert texts are joined:
a reference ends where the text ends in which it began.

Nothing is lost by the escapes: since every ampersand of the text is escaped as well, what looks like
a reference in an escaped text is one, and reading them back gives the text (`unescape_escape`).
-/

namespace DeadDrop

namespace Html

/-- The references that stand for the five characters. -/
def references : List Text :=
  ["&amp;".toList, "&lt;".toList, "&gt;".toList, "&#34;".toList, "&#39;".toList]

/-- The characters that end the text or the attribute they stand in. -/
def delimiters : List Char := ['<', '>', '"', '\'']

def Inert : Text → Prop
  | [] => True
  | c :: rest =>
    c ∉ delimiters ∧ (c = '&' → ∃ reference ∈ references, reference <+: c :: rest) ∧ Inert rest

def decidableInert : (t : Text) → Decidable (Inert t)
  | [] => isTrue trivial
  | c :: rest =>
    have := decidableInert rest
    inferInstanceAs (Decidable (c ∉ delimiters ∧
      (c = '&' → ∃ reference ∈ references, reference <+: c :: rest) ∧ Inert rest))

instance : DecidablePred Inert := decidableInert

theorem Inert.append {t u : Text} (ht : Inert t) (hu : Inert u) : Inert (t ++ u) := by
  induction t with
  | nil => exact hu
  | cons c rest ih =>
    obtain ⟨hplain, hreference, hrest⟩ := ht
    refine ⟨hplain, fun hampersand => ?_, ih hrest⟩
    obtain ⟨reference, hmem, hprefix⟩ := hreference hampersand
    exact ⟨reference, hmem, hprefix.trans (List.prefix_append _ u)⟩

theorem inert_of_plain {t : Text} (h : ∀ c ∈ t, c ∉ delimiters ∧ c ≠ '&') : Inert t := by
  induction t with
  | nil => trivial
  | cons c rest ih =>
    obtain ⟨hplain, hampersand⟩ := h c (List.mem_cons_self ..)
    exact ⟨hplain, fun heq => absurd heq hampersand,
      ih fun d hd => h d (List.mem_cons_of_mem c hd)⟩

/-- What inertness says of the text as a whole: of each character, and of what an ampersand stands
in front of. -/
theorem inert_iff (t : Text) :
    Inert t ↔ (∀ c ∈ t, c ∉ delimiters) ∧
      ∀ front rest, t = front ++ '&' :: rest →
        ∃ reference ∈ references, reference <+: '&' :: rest := by
  induction t with
  | nil => simp [Inert]
  | cons c text ih =>
    rw [Inert, ih]
    constructor
    · rintro ⟨hplain, hreference, hall, hrest⟩
      refine ⟨List.forall_mem_cons.2 ⟨hplain, hall⟩, fun front rest heq => ?_⟩
      cases front with
      | nil =>
        obtain ⟨rfl, rfl⟩ := List.cons_eq_cons.1 heq
        exact hreference rfl
      | cons d front => exact hrest front rest (List.cons_eq_cons.1 heq).2
    · rintro ⟨hall, hrest⟩
      obtain ⟨hplain, hall⟩ := List.forall_mem_cons.1 hall
      refine ⟨hplain, ?_, hall, fun front rest heq => ?_⟩
      · rintro rfl
        exact hrest [] text rfl
      · exact hrest (c :: front) rest (by rw [heq]; rfl)

theorem inert_escapeChar (c : Char) : Inert (escapeChar c) := by
  unfold escapeChar
  split_ifs with hamp hlt hgt hquot hapos
  · decide
  · decide
  · decide
  · decide
  · decide
  · refine inert_of_plain fun d hd => ?_
    obtain rfl := List.mem_singleton.1 hd
    exact ⟨by simp [delimiters, hlt, hgt, hquot, hapos], hamp⟩

theorem inert_escape (t : Text) : Inert (escape t) := by
  induction t with
  | nil => trivial
  | cons c rest ih => exact (inert_escapeChar c).append ih

/-! ### Reading the references back -/

/-- Puts back the characters for the five references, in one pass from left to right. -/
def unescape : Text → Text
  | '&' :: 'a' :: 'm' :: 'p' :: ';' :: rest => '&' :: unescape rest
  | '&' :: 'l' :: 't' :: ';' :: rest => '<' :: unescape rest
  | '&' :: 'g' :: 't' :: ';' :: rest => '>' :: unescape rest
  | '&' :: '#' :: '3' :: '4' :: ';' :: rest => '"' :: unescape rest
  | '&' :: '#' :: '3' :: '9' :: ';' :: rest => '\'' :: unescape rest
  | c :: rest => c :: unescape rest
  | [] => []

theorem unescape_cons {c : Char} (h : c ≠ '&') (rest : Text) :
    unescape (c :: rest) = c :: unescape rest := by
  rw [unescape.eq_def]
  split <;> simp_all

theorem unescape_escapeChar_append (c : Char) (rest : Text) :
    unescape (escapeChar c ++ rest) = c :: unescape rest := by
  unfold escapeChar
  split_ifs with hamp hlt hgt hquot hapos
  · subst hamp
    rfl
  · subst hlt
    rfl
  · subst hgt
    rfl
  · subst hquot
    rfl
  · subst hapos
    rfl
  · exact unescape_cons hamp rest

theorem unescape_escape (t : Text) : unescape (escape t) = t := by
  induction t with
  | nil => rfl
  | cons c rest ih =>
    have hcons : escape (c :: rest) = escapeChar c ++ escape rest := List.flatMap_cons
    rw [hcons, unescape_escapeChar_append, ih]

end Html

/-! ### Moments -/

/-- A digit, or one of the marks between the parts of a moment. -/
def IsMomentChar (c : Char) : Prop := c.isDigit = true ∨ c ∈ ['-', ':', 'T', 'Z', '+']

theorem isMomentChar_padded (width n : Nat) : ∀ c ∈ Text.padded width n, IsMomentChar c :=
  fun _ hc => .inl (Text.isDigit_of_mem_padded hc)

theorem isMomentChar_yearText (year : Int) : ∀ c ∈ Moment.yearText year, IsMomentChar c := by
  unfold Moment.yearText
  split
  · exact List.forall_mem_cons.2 ⟨.inr (by decide), isMomentChar_padded _ _⟩
  · split
    · exact List.forall_mem_cons.2 ⟨.inr (by decide), isMomentChar_padded _ _⟩
    · exact isMomentChar_padded _ _

theorem isMomentChar_toSecondsText (m : Moment) : ∀ c ∈ m.toSecondsText, IsMomentChar c := by
  have hmark : ∀ c ∈ ['-', ':', 'T', 'Z', '+'], IsMomentChar c := fun c hc => .inr hc
  simp only [List.forall_mem_cons] at hmark
  obtain ⟨hdash, hcolon, htime, hzone, -⟩ := hmark
  simp only [Moment.toSecondsText, Moment.dateTimeText, List.forall_mem_append,
    List.forall_mem_cons, hdash, hcolon, htime, hzone, List.not_mem_nil, false_implies,
    implies_true, true_and, and_true]
  exact ⟨⟨⟨⟨⟨isMomentChar_yearText _, isMomentChar_padded _ _⟩, isMomentChar_padded _ _⟩,
    isMomentChar_padded _ _⟩, isMomentChar_padded _ _⟩, isMomentChar_padded _ _⟩

theorem Moment.inert_toSecondsText (m : Moment) : Html.Inert m.toSecondsText := by
  refine Html.inert_of_plain fun c hc => ?_
  rcases isMomentChar_toSecondsText m c hc with hdigit | hmark
  · have hplain : ∀ d ∈ '&' :: Html.delimiters, d.isDigit = false := by
      simp [Html.delimiters, Char.isDigit]
    refine ⟨fun hmem => ?_, fun heq => ?_⟩
    · simp [hplain c (List.mem_cons_of_mem _ hmem)] at hdigit
    · simp [heq] at hdigit
  · have hplain : ∀ d ∈ ['-', ':', 'T', 'Z', '+'], d ∉ Html.delimiters ∧ d ≠ '&' := by
      simp [Html.delimiters]
    exact hplain c hmark

end DeadDrop
