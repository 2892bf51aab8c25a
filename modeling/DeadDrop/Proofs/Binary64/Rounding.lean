import DeadDrop.Binary64.Basic
import Mathlib.Algebra.Order.Field.Power
import Mathlib.Data.Int.Log
import Mathlib.Data.Rat.Floor
import Mathlib.Tactic.FieldSimp
import Mathlib.Tactic.Linarith
import Mathlib.Tactic.Positivity
import Mathlib.Tactic.Ring

/-!
# Rounding is monotone

A greater quotient never rounds to less, however the two are written as fractions. This holds of one
rounding to a natural number, by the two inequalities and the parity of a tie that pin it down, and
then of binary64 numbers: quotients with the same exponent are rounded on the same grid, and where
the exponents differ a power of two stands between the two results.

So whatever is said of the nanoseconds of a rounded quotient at one point is said of a whole side of
it (`toNanos?_ofRatio_mono`). Points themselves are computed.
-/

namespace DeadDrop

/-! ### To a natural number -/

/-- Twice the quotient is within one of twice the result, and at that distance the result is even. -/
theorem roundEven_near (n : Nat) {d : Nat} (hd : 0 < d) :
    2 * n ≤ (2 * roundEven n d + 1) * d ∧ 2 * roundEven n d * d ≤ 2 * n + d ∧
      (2 * n = (2 * roundEven n d + 1) * d ∨ 2 * roundEven n d * d = 2 * n + d →
        roundEven n d % 2 = 0) := by
  have hsplit : d * (n / d) + n % d = n := Nat.div_add_mod n d
  have hrest : n % d < d := Nat.mod_lt n hd
  have hup : (2 * (n / d) + 1) * d = 2 * (d * (n / d)) + d := by ring
  have hdown : 2 * (n / d) * d = 2 * (d * (n / d)) := by ring
  have hup' : (2 * (n / d + 1) + 1) * d = 2 * (d * (n / d)) + 3 * d := by ring
  have hdown' : 2 * (n / d + 1) * d = 2 * (d * (n / d)) + 2 * d := by ring
  unfold roundEven
  simp only
  split
  · rw [hup, hdown]
    omega
  · split
    · rw [hup', hdown']
      omega
    · split
      · rw [hup, hdown]
        omega
      · rw [hup', hdown']
        omega

section RoundEven

variable {n d n' d' : Nat}

theorem roundEven_mono (hd : 0 < d) (hd' : 0 < d') (hle : (n : ℚ) / d ≤ n' / d') :
    roundEven n d ≤ roundEven n' d' := by
  obtain ⟨_, hlow, htie⟩ := roundEven_near n hd
  obtain ⟨hhigh', _, htie'⟩ := roundEven_near n' hd'
  have hdQ : (0 : ℚ) < d := Nat.cast_pos.2 hd
  have hdQ' : (0 : ℚ) < d' := Nat.cast_pos.2 hd'
  have hbelow : (roundEven n d : ℚ) - 1 / 2 ≤ n / d := by
    rw [le_div_iff₀ hdQ]
    have : (2 * roundEven n d * d : ℚ) ≤ 2 * n + d := mod_cast hlow
    linarith
  have habove' : (n' : ℚ) / d' ≤ roundEven n' d' + 1 / 2 := by
    rw [div_le_iff₀ hdQ']
    have : (2 * n' : ℚ) ≤ (2 * roundEven n' d' + 1) * d' := mod_cast hhigh'
    linarith
  by_contra hgt
  have hnext : roundEven n' d' + 1 ≤ roundEven n d := Nat.lt_of_not_le hgt
  have hnextQ : (roundEven n' d' : ℚ) + 1 ≤ roundEven n d := mod_cast hnext
  -- both quotients are the tie between the two results, which are neighbours
  have heq : (n : ℚ) / d = roundEven n d - 1 / 2 := by linarith
  have heq' : (n' : ℚ) / d' = roundEven n' d' + 1 / 2 := by linarith
  have hsucc : (roundEven n d : ℚ) = roundEven n' d' + 1 := by linarith
  rw [div_eq_iff hdQ.ne'] at heq
  rw [div_eq_iff hdQ'.ne'] at heq'
  have heven : roundEven n d % 2 = 0 := by
    refine htie (.inr ?_)
    have : (2 * roundEven n d * d : ℚ) = 2 * n + d := by linarith
    exact mod_cast this
  have heven' : roundEven n' d' % 2 = 0 := by
    refine htie' (.inl ?_)
    have : (2 * n' : ℚ) = (2 * roundEven n' d' + 1) * d' := by linarith
    exact mod_cast this
  have hsuccNat : roundEven n d = roundEven n' d' + 1 := mod_cast hsucc
  omega

theorem roundEven_one (k : Nat) : roundEven k 1 = k := by
  simp [roundEven, Nat.mod_one]

theorem roundEven_le (hd : 0 < d) {k : Nat} (h : (n : ℚ) / d ≤ k) : roundEven n d ≤ k := by
  rw [← roundEven_one k]
  exact roundEven_mono hd Nat.one_pos (by simpa using h)

theorem le_roundEven (hd : 0 < d) {k : Nat} (h : (k : ℚ) ≤ n / d) : k ≤ roundEven n d := by
  rw [← roundEven_one k]
  exact roundEven_mono Nat.one_pos hd (by simpa using h)

end RoundEven

namespace Binary64

/-! ### Powers and logarithms -/

theorem raised_pos {base : Nat} (hbase : 0 < base) (e : Int) : 0 < raised base e :=
  Nat.pow_pos hbase

theorem raised_div_raised (e : Int) : (raised 2 e : ℚ) / raised 2 (-e) = 2 ^ e := by
  unfold raised
  cases e with
  | ofNat k => simp
  | negSucc k =>
    have hpos : (Int.negSucc k).toNat = 0 := rfl
    have hneg : (-Int.negSucc k).toNat = k + 1 := rfl
    rw [hpos, hneg, zpow_negSucc]
    simp

theorem raised_neg_div_raised (e : Int) : (raised 2 (-e) : ℚ) / raised 2 e = (2 ^ e)⁻¹ := by
  rw [← raised_div_raised, inv_div]

theorem floorLog2_eq_log {n d : Nat} (hn : 0 < n) (hd : 0 < d) :
    floorLog2 n d = Int.log 2 ((n : ℚ) / d) := by
  have hnQ : (0 : ℚ) < n := Nat.cast_pos.2 hn
  have hdQ : (0 : ℚ) < d := Nat.cast_pos.2 hd
  have hq : (0 : ℚ) < n / d := div_pos hnQ hdQ
  have hlog (e : Int) : (2 : ℚ) ^ e ≤ n / d ↔ e ≤ Int.log 2 ((n : ℚ) / d) := by
    simpa using Int.zpow_le_iff_le_log (b := 2) (x := e) Nat.one_lt_two hq
  -- the logarithms of both sides are off by less than one each
  have hlow : (n.log2 : Int) - d.log2 - 1 ≤ Int.log 2 ((n : ℚ) / d) := by
    have hnlow : (2 : ℚ) ^ n.log2 ≤ n := mod_cast Nat.log2_self_le hn.ne'
    have hdhigh : (d : ℚ) ≤ 2 ^ (d.log2 + 1) := mod_cast Nat.lt_log2_self.le
    rw [← hlog]
    calc (2 : ℚ) ^ ((n.log2 : Int) - d.log2 - 1) = 2 ^ n.log2 / 2 ^ (d.log2 + 1) := by
          rw [sub_sub, zpow_sub₀ two_ne_zero]
          norm_cast
      _ ≤ n / d := div_le_div₀ hnQ.le hnlow hdQ hdhigh
  have hhigh : ¬ (n.log2 : Int) - d.log2 + 1 ≤ Int.log 2 ((n : ℚ) / d) := by
    have hnhigh : (n : ℚ) < 2 ^ (n.log2 + 1) := mod_cast Nat.lt_log2_self
    have hdlow : (2 : ℚ) ^ d.log2 ≤ d := mod_cast Nat.log2_self_le hd.ne'
    rw [← hlog, not_le]
    calc (n : ℚ) / d < 2 ^ (n.log2 + 1) / 2 ^ d.log2 :=
          div_lt_div₀ hnhigh hdlow (by positivity) (by positivity)
      _ = 2 ^ ((n.log2 : Int) - d.log2 + 1) := by
          rw [sub_add_eq_add_sub, zpow_sub₀ two_ne_zero]
          norm_cast
  unfold floorLog2
  generalize (n.log2 : Int) - d.log2 = guess at hlow hhigh
  have hguess : d * raised 2 guess ≤ n * raised 2 (-guess) ↔
      guess ≤ Int.log 2 ((n : ℚ) / d) := by
    have hpos : (0 : ℚ) < raised 2 (-guess) := Nat.cast_pos.2 (raised_pos (by decide) _)
    rw [← hlog, ← raised_div_raised, div_le_div_iff₀ hpos hdQ, ← Nat.cast_mul, ← Nat.cast_mul,
      Nat.cast_le, Nat.mul_comm d]
  simp only [hguess]
  split <;> omega

/-! ### To a binary64 number -/

/-- The exponent of the grid on which a quotient is rounded. -/
def gridExponent (n d : Nat) : Int := max (floorLog2 n d - 52) leastExponent

/-- A quotient on its grid, in units of the grid. -/
def gridSignificand (n d : Nat) : Nat :=
  roundEven (n * raised 2 (-gridExponent n d)) (d * raised 2 (gridExponent n d))

/-- The value that a quotient is rounded to, before numbers that are too large become infinite. -/
def rounded (n d : Nat) : ℚ := gridSignificand n d * 2 ^ gridExponent n d

/-- The value of a significand with an exponent. -/
def magnitude (significand : Nat) (exponent : Int) : ℚ := significand * 2 ^ exponent

section Rounded

variable {n d n' d' : Nat}

theorem grid_quotient (e : Int) :
    ((n * raised 2 (-e) : Nat) : ℚ) / (d * raised 2 e : Nat) = n / d / 2 ^ e := by
  rw [Nat.cast_mul, Nat.cast_mul, mul_div_mul_comm, raised_neg_div_raised, div_eq_mul_inv (_ / _)]

theorem gridExponent_mono (hn : 0 < n) (hd : 0 < d) (hn' : 0 < n') (hd' : 0 < d')
    (hle : (n : ℚ) / d ≤ n' / d') : gridExponent n d ≤ gridExponent n' d' := by
  have hq : (0 : ℚ) < n / d := div_pos (Nat.cast_pos.2 hn) (Nat.cast_pos.2 hd)
  have hlog := Int.log_mono_right (b := 2) hq hle
  unfold gridExponent
  rw [floorLog2_eq_log hn hd, floorLog2_eq_log hn' hd']
  omega

/-- Below the next power of two, a result is at most that power. -/
theorem gridSignificand_le (hn : 0 < n) (hd : 0 < d) : gridSignificand n d ≤ significandLimit := by
  have hq : (0 : ℚ) < n / d := div_pos (Nat.cast_pos.2 hn) (Nat.cast_pos.2 hd)
  refine roundEven_le (Nat.mul_pos hd (raised_pos (by decide) _)) ?_
  rw [grid_quotient, div_le_iff₀ (by positivity)]
  have habove : (n : ℚ) / d < 2 ^ (Int.log 2 ((n : ℚ) / d) + 1) := by
    simpa using Int.lt_zpow_succ_log_self (b := 2) Nat.one_lt_two ((n : ℚ) / d)
  have hexp : Int.log 2 ((n : ℚ) / d) + 1 ≤ 53 + gridExponent n d := by
    unfold gridExponent
    rw [floorLog2_eq_log hn hd]
    omega
  calc (n : ℚ) / d ≤ 2 ^ (Int.log 2 ((n : ℚ) / d) + 1) := habove.le
    _ ≤ 2 ^ (53 + gridExponent n d) := zpow_le_zpow_right₀ one_le_two hexp
    _ = (significandLimit : ℚ) * 2 ^ gridExponent n d := by
      rw [zpow_add₀ two_ne_zero]
      norm_num [significandLimit]

/-- Above the least exponent, the significand has its leading bit. -/
theorem le_gridSignificand (hn : 0 < n) (hd : 0 < d) (h : leastExponent < gridExponent n d) :
    significandLimit / 2 ≤ gridSignificand n d := by
  have hq : (0 : ℚ) < n / d := div_pos (Nat.cast_pos.2 hn) (Nat.cast_pos.2 hd)
  have hexp : 52 + gridExponent n d = Int.log 2 ((n : ℚ) / d) := by
    rw [← floorLog2_eq_log hn hd]
    unfold gridExponent at h ⊢
    omega
  have hbelow : (2 : ℚ) ^ Int.log 2 ((n : ℚ) / d) ≤ n / d := by
    simpa using Int.zpow_log_le_self (b := 2) Nat.one_lt_two hq
  refine le_roundEven (Nat.mul_pos hd (raised_pos (by decide) _)) ?_
  rw [grid_quotient, le_div_iff₀ (by positivity)]
  calc ((significandLimit / 2 : Nat) : ℚ) * 2 ^ gridExponent n d
      = 2 ^ (52 + gridExponent n d) := by
        rw [zpow_add₀ two_ne_zero]
        norm_num [significandLimit]
    _ ≤ n / d := hexp ▸ hbelow

theorem rounded_mono (hn : 0 < n) (hd : 0 < d) (hn' : 0 < n') (hd' : 0 < d')
    (hle : (n : ℚ) / d ≤ n' / d') : rounded n d ≤ rounded n' d' := by
  unfold rounded
  rcases (gridExponent_mono hn hd hn' hd' hle).eq_or_lt with heq | hlt
  · -- one grid: the two significands are rounded alike
    have hsig : gridSignificand n d ≤ gridSignificand n' d' := by
      unfold gridSignificand
      rw [← heq]
      refine roundEven_mono (Nat.mul_pos hd (raised_pos (by decide) _))
        (Nat.mul_pos hd' (raised_pos (by decide) _)) ?_
      rw [grid_quotient, grid_quotient]
      exact div_le_div_of_nonneg_right hle (by positivity)
    rw [heq]
    exact mul_le_mul_of_nonneg_right (Nat.cast_le.2 hsig) (by positivity)
  · -- the power of two at the start of the coarser grid is in between
    have hleast : leastExponent < gridExponent n' d' :=
      lt_of_le_of_lt (le_max_right _ _) hlt
    calc (gridSignificand n d : ℚ) * 2 ^ gridExponent n d
        ≤ significandLimit * 2 ^ gridExponent n d :=
          mul_le_mul_of_nonneg_right (Nat.cast_le.2 (gridSignificand_le hn hd)) (by positivity)
      _ = (significandLimit / 2 : Nat) * 2 ^ (gridExponent n d + 1) := by
          rw [zpow_add_one₀ two_ne_zero]
          norm_num [significandLimit]
          ring
      _ ≤ (significandLimit / 2 : Nat) * 2 ^ gridExponent n' d' :=
          mul_le_mul_of_nonneg_left (zpow_le_zpow_right₀ one_le_two hlt) (by positivity)
      _ ≤ gridSignificand n' d' * 2 ^ gridExponent n' d' :=
          mul_le_mul_of_nonneg_right (Nat.cast_le.2 (le_gridSignificand hn' hd' hleast))
            (by positivity)

theorem ofRatio_of_pos (negative : Bool) (hn : 0 < n) :
    ofRatio negative n d =
      let (significand, exponent) :=
        if gridSignificand n d = significandLimit then
          (significandLimit / 2, gridExponent n d + 1)
        else (gridSignificand n d, gridExponent n d)
      if greatestExponent < exponent then .infinite negative
      else .finite negative significand exponent :=
  if_neg hn.ne'

/-- A rounded quotient is infinite only far above all times, and otherwise it has its value. -/
theorem ofRatio_eq (negative : Bool) (hn : 0 < n) (hd : 0 < d) :
    (ofRatio negative n d = .infinite negative ∧ (UInt64.size : ℚ) ≤ rounded n d) ∨
      ∃ significand exponent, ofRatio negative n d = .finite negative significand exponent ∧
        magnitude significand exponent = rounded n d := by
  -- a carry to the next power of two is the same number with the next exponent
  have hcarry : ∃ significand exponent,
      (if gridSignificand n d = significandLimit then
          (significandLimit / 2, gridExponent n d + 1)
        else (gridSignificand n d, gridExponent n d)) = (significand, exponent) ∧
      magnitude significand exponent = rounded n d ∧
      (leastExponent + 1 < exponent → significandLimit / 2 ≤ significand) := by
    split
    case isTrue hlimit =>
      refine ⟨_, _, rfl, ?_, fun _ => le_rfl⟩
      rw [rounded, magnitude, hlimit, zpow_add_one₀ two_ne_zero]
      norm_num [significandLimit]
      ring
    case isFalse =>
      refine ⟨_, _, rfl, rfl, fun hexp => le_gridSignificand hn hd ?_⟩
      omega
  obtain ⟨significand, exponent, hpair, hvalue, hlead⟩ := hcarry
  rw [ofRatio_of_pos negative hn, hpair, ← hvalue]
  by_cases hexp : greatestExponent < exponent
  · left
    refine ⟨if_pos hexp, ?_⟩
    have hsig : 1 ≤ significand :=
      le_trans (by decide) (hlead (lt_of_le_of_lt (by decide) hexp))
    calc (UInt64.size : ℚ) = (1 : Nat) * 2 ^ (64 : Int) := by norm_num [UInt64.size]
      _ ≤ significand * 2 ^ exponent := by
          refine mul_le_mul (Nat.cast_le.2 hsig) ?_ (by positivity) (by positivity)
          exact zpow_le_zpow_right₀ one_le_two (le_trans (by decide) hexp.le)
  · right
    exact ⟨significand, exponent, if_neg hexp, rfl⟩

end Rounded

/-! ### Nanoseconds -/

section Nanos

variable {s s' : Nat} {e e' : Int}

theorem magnitude_eq_div (s : Nat) (e : Int) :
    magnitude s e = ((s * raised 2 e : Nat) : ℚ) / (raised 2 (-e) : Nat) := by
  rw [magnitude, Nat.cast_mul, mul_div_assoc, raised_div_raised]

theorem toNanos?_finite (s : Nat) (e : Int) :
    (finite false s e).toNanos? =
      if magnitude s e < UInt64.size then
        some (roundEven (s * raised 2 e * nanosPerSecond) (raised 2 (-e)))
      else none := by
  have hpos : (0 : ℚ) < raised 2 (-e) := Nat.cast_pos.2 (raised_pos (by decide) _)
  have hiff : magnitude s e < UInt64.size ↔
      s * raised 2 e < UInt64.size * raised 2 (-e) := by
    rw [magnitude_eq_div, div_lt_iff₀ hpos, ← Nat.cast_mul, Nat.cast_lt]
  simp only [hiff]
  rfl

theorem toNanos?_finite_mono {p' : Nat} (hle : magnitude s e ≤ magnitude s' e')
    (hp' : (finite false s' e').toNanos? = some p') :
    ∃ p ≤ p', (finite false s e).toNanos? = some p := by
  rw [toNanos?_finite] at hp'
  split at hp'
  case isFalse => cases hp'
  case isTrue hlt =>
    rw [Option.some.injEq] at hp'
    subst hp'
    rw [toNanos?_finite, if_pos (hle.trans_lt hlt)]
    refine ⟨_, roundEven_mono (raised_pos (by decide) _) (raised_pos (by decide) _) ?_, rfl⟩
    have hscale (s : Nat) (e : Int) :
        ((s * raised 2 e * nanosPerSecond : Nat) : ℚ) / (raised 2 (-e) : Nat) =
          magnitude s e * nanosPerSecond := by
      rw [magnitude_eq_div, Nat.cast_mul _ nanosPerSecond, div_mul_eq_mul_div]
    rw [hscale, hscale]
    exact mul_le_mul_of_nonneg_right hle (Nat.cast_nonneg _)

/-- **The nanoseconds of a rounded quotient are monotone**: if those of the greater one fit, those
of the lesser one do, and they are no more. -/
theorem toNanos?_ofRatio_mono {n d n' d' p' : Nat} (hn : 0 < n) (hd : 0 < d) (hn' : 0 < n')
    (hd' : 0 < d') (hle : (n : ℚ) / d ≤ n' / d')
    (hp' : (ofRatio false n' d').toNanos? = some p') :
    ∃ p ≤ p', (ofRatio false n d).toNanos? = some p := by
  have hmono := rounded_mono hn hd hn' hd' hle
  obtain ⟨hinf, -⟩ | ⟨s', e', hfin', hvalue'⟩ := ofRatio_eq false hn' hd'
  · rw [hinf] at hp'
    cases hp'
  rw [hfin'] at hp'
  obtain ⟨-, hhuge⟩ | ⟨s, e, hfin, hvalue⟩ := ofRatio_eq false hn hd
  · have hlt : magnitude s' e' < UInt64.size := by
      by_contra hge
      rw [toNanos?_finite, if_neg hge] at hp'
      cases hp'
    rw [hvalue'] at hlt
    exact absurd (hhuge.trans hmono) hlt.not_ge
  · rw [hfin]
    exact toNanos?_finite_mono (by rw [hvalue, hvalue']; exact hmono) hp'

end Nanos

end Binary64

end DeadDrop
