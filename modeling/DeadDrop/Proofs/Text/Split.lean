import DeadDrop.Text
import Mathlib.Data.List.Basic
import Mathlib.Data.List.Forall2

/-!
# Splitting, joining and fixed beginnings

Text is split at every separator, so the pieces of a text with a separator in it are those in front
of the separator and those behind it (`splitOn_append_cons`). Joining the pieces gives the text back,
and splitting gives back pieces that have no separator in them. A cut is made at the first separator
only, so nothing but what stands in front of it is free of separators (`cut_eq_iff`). A beginning is
not taken off a text that lacks one of its characters.
-/

namespace DeadDrop

/-- All pieces are read if each of them is. -/
theorem mapM_eq_some_iff {α β : Type} {read : α → Option β} {pieces : List α} {values : List β} :
    pieces.mapM read = some values ↔
      List.Forall₂ (fun piece value => read piece = some value) pieces values := by
  induction pieces generalizing values with
  | nil => cases values <;> simp
  | cons piece pieces ih =>
    rw [List.mapM_cons]
    cases values <;> simp [Option.bind_eq_some_iff, ih]

namespace Text

variable {separator : Char}

/-! ### Pieces -/

theorem splitOn_cons_self (t : Text) :
    splitOn separator (separator :: t) = [] :: splitOn separator t := if_pos rfl

/-- A character that is no separator goes to the first piece. -/
theorem splitOn_cons_of_ne {c : Char} {t piece : Text} {pieces : List Text} (hc : c ≠ separator)
    (h : splitOn separator t = piece :: pieces) :
    splitOn separator (c :: t) = (c :: piece) :: pieces := by
  rw [splitOn, if_neg hc, h]

theorem exists_splitOn_eq_cons (separator : Char) (t : Text) :
    ∃ piece pieces, splitOn separator t = piece :: pieces := by
  induction t with
  | nil => exact ⟨[], [], rfl⟩
  | cons c t ih =>
    obtain ⟨piece, pieces, hpieces⟩ := ih
    by_cases hc : c = separator
    · rw [hc, splitOn_cons_self]
      exact ⟨[], _, rfl⟩
    · exact ⟨c :: piece, pieces, splitOn_cons_of_ne hc hpieces⟩

theorem splitOn_ne_nil (t : Text) : splitOn separator t ≠ [] := by
  obtain ⟨piece, pieces, hpieces⟩ := exists_splitOn_eq_cons separator t
  rw [hpieces]
  exact List.cons_ne_nil _ _

theorem splitOn_of_not_mem {t : Text} (h : separator ∉ t) : splitOn separator t = [t] := by
  induction t with
  | nil => rfl
  | cons c t ih =>
    have hc : c ≠ separator := fun heq => h (heq ▸ List.mem_cons_self)
    exact splitOn_cons_of_ne hc (ih fun hmem => h (List.mem_cons_of_mem _ hmem))

/-- A separator divides the pieces in front of it from those behind it. -/
theorem splitOn_append_cons (t rest : Text) :
    splitOn separator (t ++ separator :: rest) = splitOn separator t ++ splitOn separator rest := by
  induction t with
  | nil => exact splitOn_cons_self rest
  | cons c t ih =>
    by_cases hc : c = separator
    · rw [hc, List.cons_append, splitOn_cons_self, ih, splitOn_cons_self, List.cons_append]
    · obtain ⟨piece, pieces, hpieces⟩ := exists_splitOn_eq_cons separator t
      rw [hpieces, List.cons_append] at ih
      rw [List.cons_append, splitOn_cons_of_ne hc ih, splitOn_cons_of_ne hc hpieces,
        List.cons_append]

theorem splitOn_append {t : Text} (h : separator ∉ t) (rest : Text) :
    splitOn separator (t ++ separator :: rest) = t :: splitOn separator rest := by
  rw [splitOn_append_cons, splitOn_of_not_mem h, List.singleton_append]

theorem join_splitOn (t : Text) : join [separator] (splitOn separator t) = t := by
  induction t with
  | nil => rfl
  | cons c t ih =>
    obtain ⟨piece, pieces, hpieces⟩ := exists_splitOn_eq_cons separator t
    rw [hpieces] at ih
    by_cases hc : c = separator
    · rw [hc, splitOn_cons_self, hpieces, ← ih]
      rfl
    · rw [splitOn_cons_of_ne hc hpieces]
      cases pieces with
      | nil => exact congrArg (c :: ·) ih
      | cons next pieces => exact congrArg (c :: ·) ih

theorem not_mem_of_mem_splitOn {t piece : Text} (h : piece ∈ splitOn separator t) :
    separator ∉ piece := by
  induction t generalizing piece with
  | nil =>
    rw [List.mem_singleton.1 h]
    exact List.not_mem_nil
  | cons c t ih =>
    by_cases hc : c = separator
    · rw [hc, splitOn_cons_self] at h
      rcases List.mem_cons.1 h with rfl | hlater
      · exact List.not_mem_nil
      · exact ih hlater
    · obtain ⟨first, pieces, hpieces⟩ := exists_splitOn_eq_cons separator t
      rw [splitOn_cons_of_ne hc hpieces] at h
      rw [hpieces] at ih
      rcases List.mem_cons.1 h with rfl | hlater
      · exact List.not_mem_cons_of_ne_of_not_mem (Ne.symm hc) (ih List.mem_cons_self)
      · exact ih (List.mem_cons_of_mem _ hlater)

theorem splitOn_join {pieces : List Text} (hne : pieces ≠ [])
    (h : ∀ piece ∈ pieces, separator ∉ piece) :
    splitOn separator (join [separator] pieces) = pieces := by
  induction pieces with
  | nil => exact absurd rfl hne
  | cons piece pieces ih =>
    have hpiece : separator ∉ piece := h piece List.mem_cons_self
    cases pieces with
    | nil => exact splitOn_of_not_mem hpiece
    | cons next pieces =>
      rw [join, List.append_assoc, List.singleton_append, splitOn_append hpiece,
        ih (by simp) fun p hp => h p (List.mem_cons_of_mem _ hp)]
      exact List.cons_ne_nil _ _

/-- A character other than the separator is in one of the pieces. -/
theorem exists_mem_splitOn {t : Text} {c : Char} (hc : c ∈ t) (hne : c ≠ separator) :
    ∃ piece ∈ splitOn separator t, c ∈ piece := by
  induction t with
  | nil => exact absurd hc List.not_mem_nil
  | cons d t ih =>
    by_cases hd : d = separator
    · have hmem : c ∈ t := (List.mem_cons.1 hc).resolve_left fun heq => hne (heq.trans hd)
      obtain ⟨piece, hpiece, hcpiece⟩ := ih hmem
      rw [hd, splitOn_cons_self]
      exact ⟨piece, List.mem_cons_of_mem _ hpiece, hcpiece⟩
    · obtain ⟨first, pieces, hpieces⟩ := exists_splitOn_eq_cons separator t
      rw [splitOn_cons_of_ne hd hpieces]
      rw [hpieces] at ih
      rcases List.mem_cons.1 hc with rfl | hmem
      · exact ⟨_, List.mem_cons_self, List.mem_cons_self⟩
      · obtain ⟨piece, hpiece, hcpiece⟩ := ih hmem
        rcases List.mem_cons.1 hpiece with rfl | hlater
        · exact ⟨d :: piece, List.mem_cons_self, List.mem_cons_of_mem _ hcpiece⟩
        · exact ⟨piece, List.mem_cons_of_mem _ hlater, hcpiece⟩

/-! ### Cuts -/

theorem cut_cons_of_ne {c : Char} (hc : c ≠ separator) (t : Text) :
    cut separator (c :: t) = (c :: (cut separator t).1, (cut separator t).2) := if_neg hc

theorem cut_of_not_mem {t : Text} (h : separator ∉ t) : cut separator t = (t, none) := by
  induction t with
  | nil => rfl
  | cons c t ih =>
    have hc : c ≠ separator := fun heq => h (heq ▸ List.mem_cons_self)
    rw [cut_cons_of_ne hc, ih fun hmem => h (List.mem_cons_of_mem _ hmem)]

theorem cut_append {before : Text} (h : separator ∉ before) (behind : Text) :
    cut separator (before ++ separator :: behind) = (before, some behind) := by
  induction before with
  | nil => exact if_pos rfl
  | cons c before ih =>
    have hc : c ≠ separator := fun heq => h (heq ▸ List.mem_cons_self)
    rw [List.cons_append, cut_cons_of_ne hc, ih fun hmem => h (List.mem_cons_of_mem _ hmem)]

/-- A text has no separator, or it is cut at the first one. -/
theorem cut_cases (separator : Char) (t : Text) :
    (separator ∉ t ∧ cut separator t = (t, none)) ∨
      ∃ before behind, t = before ++ separator :: behind ∧ separator ∉ before ∧
        cut separator t = (before, some behind) := by
  by_cases h : separator ∈ t
  · obtain ⟨before, behind, rfl, hbefore⟩ := List.eq_append_cons_of_mem h
    exact .inr ⟨before, behind, rfl, hbefore, cut_append hbefore behind⟩
  · exact .inl ⟨h, cut_of_not_mem h⟩

theorem cut_eq_iff {t before behind : Text} :
    cut separator t = (before, some behind) ↔
      t = before ++ separator :: behind ∧ separator ∉ before := by
  constructor
  · intro h
    rcases cut_cases separator t with ⟨-, hcut⟩ | ⟨before', behind', ht, hbefore, hcut⟩
    · rw [hcut] at h
      cases h
    · rw [hcut] at h
      obtain ⟨rfl, hbehind⟩ := Prod.mk.inj h
      obtain rfl := Option.some.inj hbehind
      exact ⟨ht, hbefore⟩
  · rintro ⟨rfl, hbefore⟩
    exact cut_append hbefore behind

/-! ### Beginnings -/

theorem withoutStart_of_not_mem {start t : Text} {mark : Char} (hmark : mark ∈ start)
    (h : mark ∉ t) : t.withoutStart start = t := by
  unfold withoutStart
  cases hprefix : start.isPrefixOf? t with
  | none => rfl
  | some rest =>
    have hstarts : start ++ rest = t := List.isPrefixOf?_eq_some_iff_append_eq.1 hprefix
    have hmem : mark ∈ start ++ rest := List.mem_append_left rest hmark
    rw [hstarts] at hmem
    exact absurd hmem h

end Text

end DeadDrop
