import DeadDrop.Proofs.Text.Numeral
import DeadDrop.Proofs.Time.Calendar
import DeadDrop.Time.Moment
import Mathlib.Data.List.Forall2

/-!
# Reading back moments

The text of a moment of the years 0 to 9999 has numbers of a fixed width in fixed places (`placesText`), so
each of them is read back in front of whatever stands behind it, and the text as the date and time of day
that it shows (`ofText?_placesText`). What the date leads back to is the day that it was made from, since
days and dates correspond. A leap second is written as second 60, which is read as the second before it and
a billion nanoseconds, and so it stays one.
-/

namespace DeadDrop.Moment

/-- The moment is in one of the years from `first` to `last`. -/
def InYears (first last : Int) (m : Moment) : Prop :=
  Date.toDays ⟨first, 1, 1⟩ * daySeconds ≤ m.seconds ∧
    m.seconds < Date.toDays ⟨last + 1, 1, 1⟩ * daySeconds

instance (first last : Int) (m : Moment) : Decidable (m.InYears first last) :=
  inferInstanceAs (Decidable (_ ∧ _))

theorem inYears_iff (first last : Int) (m : Moment) :
    m.InYears first last ↔
      first ≤ (Date.ofDays (m.seconds / daySeconds)).year ∧
        (Date.ofDays (m.seconds / daySeconds)).year ≤ last := by
  have hday : (0 : Int) < daySeconds := by decide
  have hlast : (Date.ofDays (m.seconds / daySeconds)).year ≤ last ↔
      m.seconds < Date.toDays ⟨last + 1, 1, 1⟩ * daySeconds := by
    rw [← Int.lt_add_one_iff, ← Int.not_le, Date.le_year_ofDays_iff, Int.not_le,
      Int.ediv_lt_iff_lt_mul hday]
  rw [InYears, hlast, Date.le_year_ofDays_iff, Int.le_ediv_iff_mul_le hday]

/-! ### Forms -/

/-- The characters of a text, one by one, are those of a form: where the form has a letter of `YMDhms`
there is a digit, and elsewhere the character of the form. -/
def HasForm (form text : Text) : Prop :=
  List.Forall₂ (fun mark c => if mark ∈ "YMDhms".toList then c.isDigit = true else c = mark) form text

theorem HasForm.append {form form' text text' : Text} (h : HasForm form text)
    (h' : HasForm form' text') : HasForm (form ++ form') (text ++ text') :=
  List.rel_append h h'

theorem HasForm.mark_cons {form text : Text} {mark : Char} (hmark : mark ∉ "YMDhms".toList)
    (h : HasForm form text) : HasForm (mark :: form) (mark :: text) :=
  .cons (by rw [if_neg hmark]) h

theorem hasForm_padded {width n : Nat} {mark : Char} (hmark : mark ∈ "YMDhms".toList)
    (hwidth : 0 < width) (h : n < 10 ^ width) :
    HasForm (List.replicate width mark) (Text.padded width n) := by
  have hdigits : ∀ t : Text, (∀ c ∈ t, c.isDigit = true) →
      HasForm (List.replicate t.length mark) t := by
    intro t ht
    induction t with
    | nil => exact .nil
    | cons c t ih =>
      obtain ⟨hdigit, hrest⟩ := List.forall_mem_cons.1 ht
      exact .cons (by rwa [if_pos hmark]) (ih hrest)
  have hform := hdigits (Text.padded width n) fun _ => Text.isDigit_of_mem_padded
  rwa [Text.length_padded hwidth h] at hform

/-! ### Places -/

/-- The text with these numbers in its places. -/
def placesText (year month day hour minute second : Nat) : Text :=
  Text.padded 4 year ++ '-' :: (Text.padded 2 month ++ '-' :: (Text.padded 2 day ++
    'T' :: (Text.padded 2 hour ++ ':' :: (Text.padded 2 minute ++
      ':' :: (Text.padded 2 second ++ ['Z'])))))

/-- A number of a fixed width is read in front of whatever stands behind it. -/
theorem number?_padded_bind {α : Type} {width n : Nat} (hwidth : 0 < width) (h : n < 10 ^ width)
    (rest : Text) (next : Nat × Text → Option α) :
    (number? width (Text.padded width n ++ rest) >>= next) = next (n, rest) := by
  have hlength := Text.length_padded hwidth h
  rw [number?, List.take_left' hlength, List.drop_left' hlength, if_pos hlength,
    Text.toNat?_padded]
  rfl

theorem mark?_bind_of_mem {α : Type} {allowed : List Char} {c : Char} (h : c ∈ allowed)
    (rest : Text) (next : Text → Option α) : (mark? allowed (c :: rest) >>= next) = next rest := by
  rw [mark?, if_pos h]
  rfl

/-- The numbers are those of a date and a time of day, of a year that has four digits at most. -/
structure Fit (year month day hour minute second : Nat) : Prop where
  year_lt : year < 10 ^ 4
  isValid : Date.IsValid ⟨year, month, day⟩
  hour_lt : hour < 24
  minute_lt : minute < 60
  second_le : second ≤ 60

section Fit

variable {year month day hour minute second : Nat}

theorem Fit.lt_hundred (h : Fit year month day hour minute second) :
    month < 10 ^ 2 ∧ day < 10 ^ 2 ∧ hour < 10 ^ 2 ∧ minute < 10 ^ 2 ∧ second < 10 ^ 2 := by
  obtain ⟨-, ⟨-, hmonth, -, hday⟩, hhour, hminute, hsecond⟩ := h
  have hdays : Date.daysInMonth year month ≤ 31 := by
    unfold Date.daysInMonth
    split
    · split <;> decide
    · split <;> decide
  simp only at hmonth hday
  omega

theorem Fit.hasForm_placesText (h : Fit year month day hour minute second) :
    HasForm "YYYY-MM-DDThh:mm:ssZ".toList (placesText year month day hour minute second) := by
  obtain ⟨hmonth, hday, hhour, hminute, hsecond⟩ := h.lt_hundred
  have htwo : ∀ {mark : Char} {n : Nat}, mark ∈ "YMDhms".toList → n < 10 ^ 2 →
      HasForm [mark, mark] (Text.padded 2 n) := fun hmark => hasForm_padded hmark (by decide)
  have hyears : HasForm ['Y', 'Y', 'Y', 'Y'] (Text.padded 4 year) :=
    hasForm_padded (by decide) (by decide) h.year_lt
  have hmonths : HasForm ['M', 'M'] (Text.padded 2 month) := htwo (by decide) hmonth
  have hdays : HasForm ['D', 'D'] (Text.padded 2 day) := htwo (by decide) hday
  have hhours : HasForm ['h', 'h'] (Text.padded 2 hour) := htwo (by decide) hhour
  have hminutes : HasForm ['m', 'm'] (Text.padded 2 minute) := htwo (by decide) hminute
  have hseconds : HasForm ['s', 's'] (Text.padded 2 second) := htwo (by decide) hsecond
  exact hyears.append <| .mark_cons (by decide) <| hmonths.append <| .mark_cons (by decide) <|
    hdays.append <| .mark_cons (by decide) <| hhours.append <| .mark_cons (by decide) <|
    hminutes.append <| .mark_cons (by decide) <| hseconds.append <| .mark_cons (by decide) .nil

/-- The text is read as the date and the time that it shows, and its second 60 as a leap second. -/
theorem Fit.ofText?_placesText (h : Fit year month day hour minute second) :
    Moment.ofText? (placesText year month day hour minute second) =
      some
        { seconds := Date.toDays ⟨year, month, day⟩ * daySeconds +
            (hour * 3600 + minute * 60 + min second 59)
          nanos := if second = 60 then billion else 0 } := by
  obtain ⟨hmonth, hday, hhour, hminute, hsecond⟩ := h.lt_hundred
  have htwo : ∀ {n : Nat}, n < 10 ^ 2 → ∀ rest (next : Nat × Text → Option Moment),
      (number? 2 (Text.padded 2 n ++ rest) >>= next) = next (n, rest) :=
    number?_padded_bind (by decide)
  have hfraction : ∀ next : Nat × Text → Option Moment,
      (fraction? ['Z'] >>= next) = next (0, ['Z']) := fun _ => rfl
  have hoffset : ∀ next : Int → Option Moment, (offset? ['Z'] >>= next) = next 0 := fun _ => rfl
  -- each step is rewritten before its rest is looked at
  simp only [Moment.ofText?, placesText, ↓number?_padded_bind (by decide : 0 < 4) h.year_lt,
    ↓htwo hmonth, ↓htwo hday, ↓htwo hhour, ↓htwo hminute, ↓htwo hsecond,
    ↓mark?_bind_of_mem (by decide : '-' ∈ ['-']), ↓mark?_bind_of_mem (by decide : ':' ∈ [':']),
    ↓mark?_bind_of_mem (by decide : 'T' ∈ ['T', 't', ' ']), ↓hfraction, ↓hoffset]
  rw [if_pos ⟨h.isValid, h.hour_lt, h.minute_lt, h.second_le⟩, Int.sub_zero, Nat.zero_add]

end Fit

/-! ### The text of a moment -/

/-- The text of a moment shows its date and its time of day. -/
theorem exists_places {m : Moment} (hm : m.IsRepresentable) (hyears : m.InYears 0 9999) :
    ∃ year month day hour minute second, Fit year month day hour minute second ∧
      m.toSecondsText = placesText year month day hour minute second ∧
      Date.toDays ⟨year, month, day⟩ * daySeconds +
        (hour * 3600 + minute * 60 + min second 59) = m.seconds ∧
      (second = 60 ↔ billion ≤ m.nanos) := by
  let date := Date.ofDays (m.seconds / daySeconds)
  let ofDay := (m.seconds % daySeconds).toNat
  let second := ofDay % 60 + (if m.nanos < billion then 0 else 1)
  obtain ⟨hfirst, hlast⟩ : 0 ≤ date.year ∧ date.year ≤ 9999 := (inYears_iff 0 9999 m).1 hyears
  have hvalid : date.IsValid := Date.isValid_ofDays _
  have hdays : date.toDays = m.seconds / daySeconds := Date.toDays_ofDays _
  have hyear : (date.year.toNat : Int) = date.year := Int.toNat_of_nonneg hfirst
  have hdate : (⟨(date.year.toNat : Int), date.month, date.day⟩ : Date) = date := by rw [hyear]
  have hofDay : (ofDay : Int) = m.seconds % 86400 :=
    Int.toNat_of_nonneg (Int.emod_nonneg _ (by decide))
  -- a leap second is the one behind the last of its minute
  have hsecond : (m.nanos < billion ∧ second = ofDay % 60) ∨
      (billion ≤ m.nanos ∧ ofDay % 60 = 59 ∧ second = 60) := by
    by_cases hnanos : m.nanos < billion
    · exact .inl ⟨hnanos, by simp only [second, if_pos hnanos, Nat.add_zero]⟩
    · have hend : m.seconds % 60 = 59 := (hm.2.2.resolve_left hnanos).2
      have hlastSecond : ofDay % 60 = 59 := by omega
      exact .inr ⟨Nat.le_of_not_lt hnanos, hlastSecond, by
        simp only [second, hlastSecond, if_neg hnanos]⟩
  refine ⟨date.year.toNat, date.month, date.day, ofDay / 3600, ofDay / 60 % 60, second,
    ⟨?_, ?_, ?_, ?_, ?_⟩, ?_, ?_, ?_⟩
  · omega
  · rwa [hdate]
  · omega
  · omega
  · omega
  · have hyearText : yearText date.year = Text.padded 4 date.year.toNat := by
      rw [yearText, if_neg (by omega), if_neg (by omega)]
    simp only [toSecondsText, dateTimeText, placesText, List.append_assoc, List.cons_append]
    rw [hyearText]
  · rw [hdate, hdays]
    unfold daySeconds
    omega
  · omega

theorem ofText?_toSecondsText {m : Moment} (hm : m.IsRepresentable) (hyears : m.InYears 0 9999) :
    ofText? m.toSecondsText = some m.truncate := by
  obtain ⟨year, month, day, hour, minute, second, hfit, htext, hseconds, hleap⟩ :=
    exists_places hm hyears
  rw [htext, hfit.ofText?_placesText, hseconds, truncate]
  by_cases h : m.nanos < billion
  · rw [if_pos h, if_neg fun heq => Nat.not_le.2 h (hleap.1 heq)]
  · rw [if_neg h, if_pos (hleap.2 (Nat.le_of_not_lt h))]

theorem hasForm_toSecondsText {m : Moment} (hm : m.IsRepresentable) (hyears : m.InYears 0 9999) :
    HasForm "YYYY-MM-DDThh:mm:ssZ".toList m.toSecondsText := by
  obtain ⟨year, month, day, hour, minute, second, hfit, htext, -, -⟩ := exists_places hm hyears
  rw [htext]
  exact hfit.hasForm_placesText

end DeadDrop.Moment
