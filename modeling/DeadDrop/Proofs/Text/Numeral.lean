import DeadDrop.Text
import Mathlib.Algebra.Group.Nat.Defs

/-!
# Decimal numerals

A text of digits is read as the number that its digits denote, whatever number has been read in front of
it. Zeros in front add nothing, so a numeral that is padded up to a width is read as its number
(`toNat?_padded`), and as long as the number has no more digits than the width, the width is all it takes.
-/

namespace DeadDrop.Text

theorem digit?_of_isDigit {c : Char} (h : c.isDigit = true) :
    digit? c = some (c.toNat - '0'.toNat) := by
  have hrange : '0' ≤ c ∧ c ≤ '9' := by simpa [Char.isDigit, Char.le_def] using h
  rw [digit?, if_pos hrange]

theorem digit?_of_not_isDigit {c : Char} (h : c.isDigit = false) : digit? c = none := by
  have hrange : ¬ ('0' ≤ c ∧ c ≤ '9') := by simpa [Char.isDigit, Char.le_def] using h
  rw [digit?, if_neg hrange]

theorem digitsFrom?_of_digits {t : Text} (h : ∀ c ∈ t, c.isDigit = true) (value : Nat) :
    digitsFrom? value t = some (Nat.ofDigitChars 10 t value) := by
  induction t generalizing value with
  | nil => rw [digitsFrom?, Nat.ofDigitChars_nil]
  | cons c t ih =>
    obtain ⟨hdigit, hrest⟩ := List.forall_mem_cons.1 h
    rw [digitsFrom?, digit?_of_isDigit hdigit, Option.bind_some, ih hrest, Nat.ofDigitChars_cons,
      Nat.mul_comm]

theorem toNat?_of_digits {t : Text} (hne : t ≠ []) (h : ∀ c ∈ t, c.isDigit = true) :
    toNat? t = some (Nat.ofDigitChars 10 t 0) := by
  rw [toNat?, List.isEmpty_eq_false_iff.2 hne]
  exact digitsFrom?_of_digits h 0

/-! ### Padding -/

theorem isDigit_of_mem_padded {width n : Nat} {c : Char} (h : c ∈ padded width n) :
    c.isDigit = true := by
  rcases List.mem_append.1 h with hzero | hdigit
  · rw [(List.mem_replicate.1 hzero).2]
    rfl
  · exact Nat.isDigit_of_mem_toDigits (by decide) (by decide) hdigit

theorem length_padded {width n : Nat} (hwidth : 0 < width) (h : n < 10 ^ width) :
    (padded width n).length = width := by
  have hfits : (ofNat n).length ≤ width :=
    (Nat.length_toDigits_le_iff (by decide) hwidth).2 h
  rw [padded, List.length_append, List.length_replicate]
  exact Nat.sub_add_cancel hfits

theorem toNat?_padded (width n : Nat) : toNat? (padded width n) = some n := by
  have hne : padded width n ≠ [] := List.append_ne_nil_of_right_ne_nil _ Nat.toDigits_ne_nil
  rw [toNat?_of_digits hne fun _ => isDigit_of_mem_padded, padded, Nat.ofDigitChars_append,
    Nat.ofDigitChars_replicate_zero, Nat.mul_zero]
  exact congrArg some Nat.ofDigitChars_ten_toDigits

end DeadDrop.Text
