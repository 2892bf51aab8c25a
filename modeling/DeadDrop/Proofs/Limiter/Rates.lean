import DeadDrop.Limiter
import DeadDrop.Proofs.Binary64.Rounding
import Mathlib.Tactic.NormNum

/-!
# Rates that a limiter takes

A limiter counts a rate by the whole nanoseconds between two tokens, so not every positive rate has
one. From the slowest rates to the fastest, the period in seconds is out of range, then it is too
long for the limiter's clock, then there is a limiter, and then the period is nothing at all.

The period of a rate is rounded twice, but both roundings are monotone: a faster rate has a period
if a slower one does, and no longer a one. So it is enough to compute the period at each of the
three bounds and at the first number above it.
-/

namespace DeadDrop

namespace Binary64

/-- The number is one of the format's: its significand has at most 53 bits. -/
def Fits : Binary64 → Prop
  | .finite _ significand _ => significand < significandLimit
  | _ => True

/-- The value of a finite number. -/
def value : Binary64 → ℚ
  | .finite true significand exponent => -magnitude significand exponent
  | .finite false significand exponent => magnitude significand exponent
  | _ => 0

theorem ofRatio_fits (negative : Bool) (n : Nat) {d : Nat} (hd : 0 < d) :
    (ofRatio negative n d).Fits := by
  rcases n.eq_zero_or_pos with rfl | hn
  · exact (by decide : (0 : Nat) < significandLimit)
  · have hle := gridSignificand_le hn hd
    rw [ofRatio_of_pos negative hn]
    by_cases hlimit : gridSignificand n d = significandLimit
    · rw [if_pos hlimit]
      dsimp only
      split
      · trivial
      · exact (by decide : significandLimit / 2 < significandLimit)
    · rw [if_neg hlimit]
      dsimp only
      split
      · trivial
      · exact lt_of_le_of_ne hle hlimit

section Neighbours

variable {s m : Nat} {e k : Int}

theorem magnitude_pos (hs : 0 < s) (e : Int) : 0 < magnitude s e :=
  mul_pos (Nat.cast_pos.2 hs) (by positivity)

theorem magnitude_le_iff {a b : Nat} (k : Int) : magnitude a k ≤ magnitude b k ↔ a ≤ b := by
  unfold magnitude
  rw [mul_le_mul_iff_of_pos_right (by positivity), Nat.cast_le]

theorem magnitude_lt_iff {a b : Nat} (k : Int) : magnitude a k < magnitude b k ↔ a < b := by
  rw [← not_le, magnitude_le_iff, not_le]

/-- On a grid that is coarser than its own, a number is below the numbers with a leading bit. -/
theorem magnitude_on_grid (hs : s < significandLimit) (e k : Int) :
    (∃ n, magnitude s e = magnitude n k) ∨ magnitude s e < magnitude (significandLimit / 2) k := by
  rcases le_or_gt k e with hle | hlt
  · left
    obtain ⟨j, rfl⟩ := Int.le.dest hle
    refine ⟨s * 2 ^ j, ?_⟩
    rw [magnitude, magnitude, zpow_add₀ two_ne_zero, zpow_natCast]
    push_cast
    ring
  · right
    have hstep : e + 1 ≤ k := hlt
    calc magnitude s e < magnitude significandLimit e := (magnitude_lt_iff e).2 hs
      _ = magnitude (significandLimit / 2) (e + 1) := by
        rw [magnitude, magnitude, zpow_add_one₀ two_ne_zero]
        norm_num [significandLimit]
        ring
      _ ≤ magnitude (significandLimit / 2) k :=
        mul_le_mul_of_nonneg_left (zpow_le_zpow_right₀ one_le_two hstep) (Nat.cast_nonneg _)

/-- What is greater than a number is at least its neighbour. -/
theorem magnitude_succ_le (hs : s < significandLimit) (hm : significandLimit / 2 ≤ m)
    (h : magnitude m k < magnitude s e) : magnitude (m + 1) k ≤ magnitude s e := by
  obtain ⟨n, hn⟩ | hbelow := magnitude_on_grid hs e k
  · rw [hn, magnitude_lt_iff] at h
    rw [hn, magnitude_le_iff]
    exact h
  · have hle := (magnitude_le_iff k).2 hm
    exact absurd (h.trans hbelow) hle.not_gt

end Neighbours

theorem isPositive_iff (x : Binary64) :
    x.isPositive ↔ ∃ s e, x = .finite false s e ∧ 0 < s := by
  cases x with
  | nan => simp [isPositive]
  | infinite negative => simp [isPositive]
  | finite negative s e => cases negative <;> simp [isPositive]

/-- The nanoseconds between two events at a rate: a faster rate has no more. -/
theorem period_anti {s s' p : Nat} {e e' : Int} (hs : 0 < s) (hs' : 0 < s')
    (h : magnitude s e ≤ magnitude s' e')
    (hp : (finite false s e).reciprocal.toNanos? = some p) :
    ∃ p' ≤ p, (finite false s' e').reciprocal.toNanos? = some p' := by
  have hquotient (s : Nat) (e : Int) :
      ((raised 2 (-e) : Nat) : ℚ) / (s * raised 2 e : Nat) = (magnitude s e)⁻¹ := by
    rw [magnitude_eq_div, inv_div]
  have hreciprocal {s : Nat} (hs : 0 < s) (e : Int) :
      (finite false s e).reciprocal = ofRatio false (raised 2 (-e)) (s * raised 2 e) :=
    if_neg hs.ne'
  have hpos {s : Nat} (hs : 0 < s) (e : Int) : 0 < s * raised 2 e :=
    Nat.mul_pos hs (raised_pos (by decide) e)
  rw [hreciprocal hs] at hp
  rw [hreciprocal hs']
  refine toNanos?_ofRatio_mono (raised_pos (by decide) _) (hpos hs' e')
    (raised_pos (by decide) _) (hpos hs e) ?_ hp
  rw [hquotient, hquotient]
  exact inv_anti₀ (magnitude_pos hs e) h

end Binary64

namespace Limiter

open Binary64

/-- Up to this rate, a period has too many seconds for 64 bits. -/
def durationRate : ℚ := 1 / UInt64.size

/-- Up to this rate, a period is too long for the clock of a limiter. -/
def slowestRate : ℚ := nanosPerSecond / periodLimit

/-- From this rate on, a period has less than half a nanosecond. At the rate itself, the half rounds
to a whole one. -/
def fastestRate : ℚ := 2 * nanosPerSecond

theorem durationRate_eq : durationRate = magnitude (2 ^ 52) (-116) := by
  norm_num [magnitude, durationRate, UInt64.size]

theorem slowestRate_eq : slowestRate = magnitude 8388608000000000 (-87) := by
  norm_num [magnitude, slowestRate, periodLimit, nanosPerSecond, UInt64.size]

theorem fastestRate_eq : fastestRate = magnitude 8388608000000000 (-22) := by
  norm_num [magnitude, fastestRate, nanosPerSecond]

theorem durationRate_lt_slowestRate : durationRate < slowestRate := by
  norm_num [durationRate, slowestRate, periodLimit, nanosPerSecond, UInt64.size]

theorem slowestRate_lt_fastestRate : slowestRate < fastestRate := by
  norm_num [slowestRate, fastestRate, periodLimit, nanosPerSecond, UInt64.size]

/-- There are limiters with this rate. -/
def Supports (rate : Binary64) : Prop := slowestRate < rate.value ∧ rate.value ≤ fastestRate

instance (rate : Binary64) : Decidable (Supports rate) := instDecidableAnd

/-- The period at each of the three rates and just above it. -/
theorem periods_at_bounds :
    ((finite false (2 ^ 52) (-116)).reciprocal.toNanos? = none ∧
      (finite false (2 ^ 52 + 1) (-116)).reciprocal.toNanos?.isSome) ∧
    ((∀ q ∈ (finite false 8388608000000000 (-87)).reciprocal.toNanos?, periodLimit ≤ q) ∧
      (finite false (8388608000000000 + 1) (-87)).reciprocal.toNanos? =
        some 18446744073709548950) ∧
    (finite false 8388608000000000 (-22)).reciprocal.toNanos? = some 1 ∧
      (finite false (8388608000000000 + 1) (-22)).reciprocal.toNanos? = some 0 := by
  decide +kernel

section Bounds

variable {s : Nat} {e : Int}

theorem period_none (hs : 0 < s) (h : magnitude s e ≤ durationRate) :
    (finite false s e).reciprocal.toNanos? = none := by
  obtain ⟨⟨hat, -⟩, -⟩ := periods_at_bounds
  by_contra hsome
  obtain ⟨p, hp⟩ := Option.ne_none_iff_exists'.1 hsome
  obtain ⟨q, -, hq⟩ := period_anti hs (by decide) (durationRate_eq ▸ h) hp
  rw [hat] at hq
  cases hq

theorem exists_period (hs : 0 < s) (hfits : s < significandLimit)
    (h : durationRate < magnitude s e) :
    ∃ p, (finite false s e).reciprocal.toNanos? = some p := by
  obtain ⟨⟨-, hat⟩, -⟩ := periods_at_bounds
  obtain ⟨q, hq⟩ := Option.isSome_iff_exists.1 hat
  have hnext := magnitude_succ_le hfits (by decide) (durationRate_eq ▸ h)
  obtain ⟨p, -, hp⟩ := period_anti (by decide) hs hnext hq
  exact ⟨p, hp⟩

theorem periodLimit_le (hs : 0 < s) (h : magnitude s e ≤ slowestRate) {p : Nat}
    (hp : (finite false s e).reciprocal.toNanos? = some p) : periodLimit ≤ p := by
  obtain ⟨-, ⟨hat, -⟩, -⟩ := periods_at_bounds
  obtain ⟨q, hqp, hq⟩ := period_anti hs (by decide) (slowestRate_eq ▸ h) hp
  exact (hat q hq).trans hqp

theorem period_lt (hs : 0 < s) (hfits : s < significandLimit) (h : slowestRate < magnitude s e) :
    ∃ p < periodLimit, (finite false s e).reciprocal.toNanos? = some p := by
  obtain ⟨-, ⟨-, hat⟩, -⟩ := periods_at_bounds
  have hnext := magnitude_succ_le hfits (by decide) (slowestRate_eq ▸ h)
  obtain ⟨p, hle, hp⟩ := period_anti (by decide) hs hnext hat
  exact ⟨p, hle.trans_lt (by decide), hp⟩

theorem period_pos (hs : 0 < s) (h : magnitude s e ≤ fastestRate) {p : Nat}
    (hp : (finite false s e).reciprocal.toNanos? = some p) : 0 < p := by
  obtain ⟨-, -, hat, -⟩ := periods_at_bounds
  obtain ⟨q, hle, hq⟩ := period_anti hs (by decide) (fastestRate_eq ▸ h) hp
  rw [hat, Option.some.injEq] at hq
  omega

theorem period_zero (hs : 0 < s) (hfits : s < significandLimit) (h : fastestRate < magnitude s e) :
    (finite false s e).reciprocal.toNanos? = some 0 := by
  obtain ⟨-, -, -, hat⟩ := periods_at_bounds
  have hnext := magnitude_succ_le hfits (by decide) (fastestRate_eq ▸ h)
  obtain ⟨p, hle, hp⟩ := period_anti (by decide) hs hnext hat
  rw [hp, Nat.le_zero.1 hle]

end Bounds

/-! ### Limiters -/

/-- How the making of a limiter with a positive rate ends. -/
inductive Made (rate : Binary64) : Outcome RateError Limiter → Prop
  | tooLow (h : rate.value ≤ durationRate) : Made rate (.error (.tooLow rate))
  | aborted (h : durationRate < rate.value) (hslow : rate.value ≤ slowestRate) :
    Made rate .abort
  | made {l : Limiter} (h : Supports rate) (hperiod : 0 < l.period ∧ l.period < periodLimit) :
    Made rate (.ok l)
  | tooHigh (h : fastestRate < rate.value) : Made rate (.error (.tooHigh rate))

theorem made_make {rate : Binary64} {burst : Nat} (hrate : rate.isPositive) (hfits : rate.Fits)
    (hburst : burst ≠ 0) : Made rate (make rate burst) := by
  unfold make
  rw [if_neg (by simp [hrate]), if_neg hburst]
  obtain ⟨s, e, rfl, hs⟩ := (isPositive_iff rate).1 hrate
  rcases le_or_gt (magnitude s e) durationRate with hlow | hduration
  · rw [period_none hs hlow]
    exact .tooLow hlow
  rcases le_or_gt (magnitude s e) slowestRate with hslow | hclock
  · obtain ⟨p, hp⟩ := exists_period hs hfits hduration
    have hlong : periodLimit ≤ p := periodLimit_le hs hslow hp
    have hpos : p ≠ 0 := (lt_of_lt_of_le (by decide) hlong).ne'
    simp only [hp, if_neg hpos, if_pos hlong]
    exact .aborted hduration hslow
  rcases le_or_gt (magnitude s e) fastestRate with hfast | hhigh
  · obtain ⟨p, hshort, hp⟩ := period_lt hs hfits hclock
    have hpos : 0 < p := period_pos hs hfast hp
    simp only [hp, if_neg hpos.ne', if_neg hshort.not_ge]
    exact .made ⟨hclock, hfast⟩ ⟨hpos, hshort⟩
  · rw [period_zero hs hfits hhigh]
    exact .tooHigh hhigh

theorem exists_make_of_supports {rate : Binary64} {burst : Nat} (hrate : rate.isPositive)
    (hfits : rate.Fits) (hburst : burst ≠ 0) (h : Supports rate) :
    ∃ l, make rate burst = .ok l := by
  have hmade := made_make hrate hfits hburst
  generalize make rate burst = outcome at hmade ⊢
  cases hmade with
  | tooLow hlow => exact absurd (hlow.trans_lt durationRate_lt_slowestRate) h.1.not_gt
  | aborted _ hslow => exact absurd h.1 hslow.not_gt
  | made => exact ⟨_, rfl⟩
  | tooHigh hhigh => exact absurd h.2 hhigh.not_ge

end Limiter

end DeadDrop
