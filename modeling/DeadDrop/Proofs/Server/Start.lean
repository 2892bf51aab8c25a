import DeadDrop.Proofs.Action
import DeadDrop.Proofs.Limiter.Rates
import DeadDrop.Server.Start

/-!
# Starting a validated configuration

Validation and the start both look at the rate, and they do not ask the same. Validation asks for a
positive number; the limiter asks for a number whose period it can count. So of a validated
configuration the retention time is known to be read and a bucket to hold a token, and once the
store has been opened, the rate alone decides how the start ends: there is a site if the limiter
supports the rate, and on either side of these rates there is an error, or none and an abort.
-/

namespace DeadDrop

namespace Config

/-- What validation makes sure of for a start. -/
theorem startable_of_validate {c : Config} {storeIsFile : Bool} {warnings : List Text}
    (h : c.validate storeIsFile = .ok warnings) :
    (∃ seconds, c.retention = .ok seconds) ∧ c.perSecond.isPositive ∧ c.burst ≠ 0 := by
  have hnone : c.problems storeIsFile = [] := by
    unfold validate at h
    split at h
    case isTrue hempty => exact List.isEmpty_iff.1 hempty
    case isFalse => cases h
  unfold problems at hnone
  simp only [List.append_eq_nil_iff] at hnone
  obtain ⟨⟨⟨⟨⟨-, hretention⟩, -⟩, hrate⟩, hburst⟩, -⟩ := hnone
  refine ⟨?_, ?_, ?_⟩
  · cases hc : c.retention with
    | ok seconds => exact ⟨seconds, rfl⟩
    | error e => simp only [hc, List.cons_ne_nil] at hretention
  · by_contra hnot
    rw [if_neg hnot] at hrate
    cases hrate
  · intro hzero
    rw [if_pos hzero] at hburst
    cases hburst

end Config

namespace Server

section Start

variable {clock : Clock} {c : Config} {disk disk' : Disk} {backend : Storage} {moment : Moment}
  {site : Http.Site Storage}

/-- The store that a configuration opens, with its retention time in nanoseconds. -/
def storeOf (backend : Storage) (seconds : Nat) : RecordStore Storage :=
  { backend, retention := seconds * Moment.billion }

/-- After the store is open, the limiter decides. -/
theorem start_eq {seconds : Nat} (hretention : c.retention = .ok seconds)
    (hopen : openStorage c disk = (.ok backend, disk')) (hmoment : clock.moment? = some moment) :
    start clock c disk =
      (((Limiter.make c.perSecond c.burst).mapError .rate).map fun limiter =>
        .started (storeOf backend seconds) limiter c.maxRequestSize moment, disk') := by
  have hseconds : (Action.done ((Outcome.ofExcept c.retention).mapError .retention) :
      Action Disk StartError Nat) disk = (.ok seconds, disk) := by
    rw [hretention]
    rfl
  rw [start, Action.bind_of_ok hseconds, Action.bind_of_ok hopen]
  simp only [hmoment]
  exact Action.bind_pure_apply _ disk'

/-- A start that ends with a site went through all steps. -/
theorem start_eq_ok (h : start clock c disk = (.ok site, disk')) :
    ∃ seconds backend limiter moment, c.retention = .ok seconds ∧
      openStorage c disk = (.ok backend, disk') ∧
      site = .started (storeOf backend seconds) limiter c.maxRequestSize moment := by
  obtain ⟨seconds, disk₁, hseconds, h⟩ := Action.bind_eq_ok h
  obtain ⟨backend, disk₂, hopen, h⟩ := Action.bind_eq_ok h
  obtain ⟨limiter, disk₃, hlimiter, h⟩ := Action.bind_eq_ok h
  obtain ⟨hretention, rfl⟩ := Prod.mk.inj hseconds
  obtain ⟨-, rfl⟩ := Prod.mk.inj hlimiter
  cases hmoment : clock.moment? with
  | none =>
    simp only [hmoment] at h
    cases congrArg Prod.fst h
  | some moment =>
    simp only [hmoment] at h
    obtain ⟨hsite, rfl⟩ := Prod.mk.inj h
    refine ⟨seconds, backend, limiter, moment, ?_, hopen, (Outcome.ok.inj hsite).symm⟩
    cases hc : c.retention with
    | error e =>
      rw [hc] at hretention
      cases hretention
    | ok found =>
      rw [hc] at hretention
      exact congrArg _ (Outcome.ok.inj hretention)

/-- **The rate decides whether a validated configuration starts**: its store being open, there is a
site exactly if the limiter supports the rate. Slower rates have a period that is no duration, or
one that the limiter's clock cannot hold, and then the start aborts; faster ones have no period. -/
theorem start_of_validate {storeIsFile : Bool} {warnings : List Text}
    (hvalid : c.validate storeIsFile = .ok warnings) (hfits : c.perSecond.Fits)
    (hopen : openStorage c disk = (.ok backend, disk')) (hmoment : clock.moment? = some moment) :
    ((∃ site, start clock c disk = (.ok site, disk')) ↔ Limiter.Supports c.perSecond) ∧
      (start clock c disk = (.error (.rate (.tooLow c.perSecond)), disk') ↔
        c.perSecond.value ≤ Limiter.durationRate) ∧
      (start clock c disk = (.abort, disk') ↔
        Limiter.durationRate < c.perSecond.value ∧ c.perSecond.value ≤ Limiter.slowestRate) ∧
      (start clock c disk = (.error (.rate (.tooHigh c.perSecond)), disk') ↔
        Limiter.fastestRate < c.perSecond.value) := by
  obtain ⟨⟨seconds, hretention⟩, hrate, hburst⟩ := Config.startable_of_validate hvalid
  have hmade := Limiter.made_make hrate hfits hburst
  have hlow := Limiter.durationRate_lt_slowestRate
  have hhigh := Limiter.slowestRate_lt_fastestRate
  rw [start_eq hretention hopen hmoment, Limiter.Supports]
  generalize Limiter.make c.perSecond c.burst = outcome at hmade ⊢
  -- one way to end for each range of rates, and the ranges are disjoint
  cases hmade with
  | tooLow h => simp [Outcome.map, h, h.trans hlow.le, (h.trans_lt (hlow.trans hhigh)).le]
  | aborted h hslow => simp [Outcome.map, h, hslow, hslow.trans hhigh.le]
  | made h hperiod => simp [Outcome.map, h.1, h.2, hlow.trans h.1]
  | tooHigh h => simp [Outcome.map, h, hhigh.trans h, (hlow.trans hhigh).trans h]

end Start

/-- The defaults, in memory and at another rate. -/
def sampleConfig (perSecond : Binary64) : Config :=
  { Config.defaults with perSecond, inMemory := true }

def sampleClock : Clock := { wall := 1700000000000000000, monotonic := 0 }

theorem openStorage_sampleConfig (perSecond : Binary64) (disk : Disk) :
    openStorage (sampleConfig perSecond) disk = (.ok (.memory .empty), disk) := rfl

theorem moment?_sampleClock : sampleClock.moment? = some ⟨1700000000, 0⟩ := by decide +kernel

theorem start_of_validate_sample :
    (sampleConfig (.ofInt 10)).validate false = .ok [] ∧ (sampleConfig (.ofInt 10)).perSecond.Fits ∧
      ∃ site, start sampleClock (sampleConfig (.ofInt 10)) .empty = (.ok site, .empty) := by
  have hvalid : (sampleConfig (.ofInt 10)).validate false = .ok [] := by decide +kernel
  have hfits : (sampleConfig (.ofInt 10)).perSecond.Fits :=
    Binary64.ofRatio_fits false 10 Nat.one_pos
  exact ⟨hvalid, hfits,
    (start_of_validate hvalid hfits (openStorage_sampleConfig _ _) moment?_sampleClock).1.2
      (by decide +kernel)⟩

/-- A hundred-billionth of a request per second is a positive rate, but its period is too long for
the limiter's clock. -/
theorem not_start_of_validate_slow :
    (sampleConfig (.ofDecimal false 1 (-11))).validate false = .ok [] ∧
      start sampleClock (sampleConfig (.ofDecimal false 1 (-11))) .empty = (.abort, .empty) := by
  have hretention : (sampleConfig (.ofDecimal false 1 (-11))).retention = .ok 86400 := by
    decide +kernel
  have hpositive : (Binary64.ofDecimal false 1 (-11)).isPositive = true := by decide +kernel
  have hperiod : (Binary64.ofDecimal false 1 (-11)).reciprocal.toNanos? =
      some 100000000000000000000 := by decide +kernel
  have hmake : Limiter.make (sampleConfig (.ofDecimal false 1 (-11))).perSecond
      (sampleConfig (.ofDecimal false 1 (-11))).burst = .abort := by
    change Limiter.make (.ofDecimal false 1 (-11)) 5 = .abort
    simp [Limiter.make, hpositive, hperiod, Limiter.periodLimit, UInt64.size]
  refine ⟨by decide +kernel, ?_⟩
  rw [start_eq hretention (openStorage_sampleConfig _ _) moment?_sampleClock, hmake]
  rfl

end Server

end DeadDrop
