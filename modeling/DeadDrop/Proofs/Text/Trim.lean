import DeadDrop.Text
import Mathlib.Data.List.TakeWhile

/-!
# Trimming

A text is cut three ways by trimming, into the blanks in front, the body and the blanks behind, and
the body has no blank at its ends. There is one such body, so this says what trimming leaves
(`trim_eq_iff`).
-/

namespace DeadDrop.Text

/-- What is left of a text without the blanks at its two ends. -/
structure Trimmed (blank : Char → Bool) (t body : Text) : Prop where
  ends : ∃ front back, t = front ++ body ++ back ∧ ∀ c ∈ front ++ back, blank c = true
  head : ∀ c, body.head? = some c → blank c = false
  last : ∀ c, body.getLast? = some c → blank c = false

variable {blank : Char → Bool} {t body : Text}

theorem dropWhile_of_head (h : ∀ c, t.head? = some c → blank c = false) : t.dropWhile blank = t := by
  cases t with
  | nil => rfl
  | cons c rest => exact List.dropWhile_cons_of_neg (by simp [h c rfl])

theorem trim_of_ends (hhead : ∀ c, t.head? = some c → blank c = false)
    (hlast : ∀ c, t.getLast? = some c → blank c = false) : t.trim blank = t := by
  have hback : ∀ c, t.reverse.head? = some c → blank c = false := by rwa [List.head?_reverse]
  rw [trim, dropWhile_of_head hhead, dropWhile_of_head hback, List.reverse_reverse]

theorem trim_append_left {front : Text} (hfront : ∀ c ∈ front, blank c = true) :
    (front ++ t).trim blank = t.trim blank := by
  rw [trim, trim, List.dropWhile_append_of_pos hfront]

theorem trim_append_right {back : Text} (hback : ∀ c ∈ back, blank c = true) :
    (t ++ back).trim blank = t.trim blank := by
  rw [trim, trim, List.dropWhile_append]
  split
  · rename_i hempty
    rw [List.isEmpty_iff.1 hempty, List.dropWhile_eq_nil_iff.2 hback]
  · rw [List.reverse_append, List.dropWhile_append_of_pos fun c hc => hback c (List.mem_reverse.1 hc)]

theorem trimmed_trim (blank : Char → Bool) (t : Text) : Trimmed blank t (t.trim blank) := by
  have hfront := List.takeWhile_append_dropWhile (p := blank) (l := t)
  have hback := List.takeWhile_append_dropWhile (p := blank) (l := (t.dropWhile blank).reverse)
  have hsplit : t.dropWhile blank =
      t.trim blank ++ ((t.dropWhile blank).reverse.takeWhile blank).reverse := by
    rw [trim, ← List.reverse_append, hback, List.reverse_reverse]
  refine ⟨⟨t.takeWhile blank, ((t.dropWhile blank).reverse.takeWhile blank).reverse, ?_, ?_⟩, ?_, ?_⟩
  · rw [List.append_assoc, ← hsplit, hfront]
  · intro c hc
    rcases List.mem_append.1 hc with hc | hc
    · exact List.mem_takeWhile_imp hc
    · exact List.mem_takeWhile_imp (List.mem_reverse.1 hc)
  · -- the body is a beginning of what has been trimmed in front
    intro c hc
    have hhead : (t.dropWhile blank).head? = some c := by rw [hsplit, List.head?_append, hc]; rfl
    have hnot := List.head?_dropWhile_not blank t
    rw [hhead] at hnot
    simpa using hnot
  · intro c hc
    rw [trim, List.getLast?_reverse] at hc
    have hnot := List.head?_dropWhile_not blank (t.dropWhile blank).reverse
    rw [hc] at hnot
    simpa using hnot

/-- Trimming leaves the body. -/
theorem trim_eq_iff : t.trim blank = body ↔ Trimmed blank t body := by
  constructor
  · rintro rfl
    exact trimmed_trim blank t
  · rintro ⟨⟨front, back, rfl, hblank⟩, hhead, hlast⟩
    rw [trim_append_right fun c hc => hblank c (List.mem_append_right _ hc),
      trim_append_left fun c hc => hblank c (List.mem_append_left _ hc), trim_of_ends hhead hlast]

end DeadDrop.Text
