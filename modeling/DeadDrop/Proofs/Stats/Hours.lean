import DeadDrop.Proofs.Stats.Window
import Mathlib.Order.Interval.Finset.Basic
import Mathlib.Data.Int.Interval

/-!
# How many hours a snapshot sums

An hour is summed if it began at most 24 hours ago, and none has begun after the snapshot. At a time
inside an hour the beginnings of 24 hours lie in between, so 24 is the most that a snapshot sums.
At a whole hour the beginning of the hour 24 hours ago is still in the window, and there are 25.
-/

namespace DeadDrop.Stats

open Clock (hourNanos hourStart)

variable {history : List (Timed Call)} {clock : Clock} {moment : Moment}

/-- Every bucket comes from an event of its hour. -/
theorem exists_of_get?_hourly (startTime : Moment) {hour : Int} {counts : EventCounts}
    (h : (stateAfter answer history (started startTime)).hourly.get? hour = some counts) :
    ∃ i ∈ history, i.clock.wall / hourNanos = hour := by
  refine stateAfter_induction
    (fun (before : List (Timed Call)) (s : Stats) => ∀ counts, s.hourly.get? hour = some counts →
      ∃ i ∈ before, i.clock.wall / hourNanos = hour) ?_ ?_ counts h
  · intro counts hcounts
    exact absurd hcounts (by simp [started, Table.empty, Table.get?, Assoc.get?])
  · intro before i rest _ s ih counts hcounts
    suffices hor : i.clock.wall / hourNanos = hour ∨ ∃ counts, s.hourly.get? hour = some counts by
      rcases hor with hi | ⟨counts, hbefore⟩
      · exact ⟨i, List.mem_append_right before List.mem_cons_self, hi⟩
      · obtain ⟨j, hj, hhour⟩ := ih counts hbefore
        exact ⟨j, List.mem_append_left _ hj, hhour⟩
    obtain ⟨clock, call⟩ := i
    cases hmoment : clock.moment? with
    | none => cases call <;> exact .inr ⟨counts, by simpa [answer, hmoment] using hcounts⟩
    | some moment =>
      cases call with
      | record event =>
        simp only [answer, hmoment, get?_hourly_record, hourOf_eq hmoment] at hcounts
        split at hcounts
        · rename_i hhour
          exact .inl hhour.symm
        · exact .inr ⟨counts, hcounts⟩
      | hit client => exact .inr ⟨counts, hcounts⟩
      | snapshot =>
        simp only [answer, hmoment, get?_hourly_snapshot, Option.filter_eq_some_iff] at hcounts
        exact .inr ⟨counts, hcounts.1⟩

/-- Between the first hour that can be in the window and the hour of the snapshot there is a bucket
for each hour at most. -/
theorem size_hourly_snapshot_le (startTime : Moment)
    (hpast : ∀ i ∈ history, i.clock.wall ≤ clock.wall) (hmoment : clock.moment? = some moment)
    {first : Int} (hfirst : ∀ hour, clock.wall - 24 * hourNanos ≤ hour * hourNanos → first ≤ hour) :
    ((stateAfter answer history (started startTime)).snapshot moment).2.hourly.size ≤
      (clock.wall / hourNanos + 1 - first).toNat := by
  let kept := ((stateAfter answer history (started startTime)).snapshot moment).2.hourly
  have hhours : {hour | ∃ counts, kept.get? hour = some counts} ⊆
      Finset.Icc first (clock.wall / hourNanos) := by
    rintro hour ⟨counts, hcounts⟩
    rw [get?_hourly_snapshot, Option.filter_eq_some_iff, inWindow_iff hmoment] at hcounts
    obtain ⟨hget, hbegun⟩ := hcounts
    obtain ⟨i, hi, hhour⟩ := exists_of_get?_hourly startTime hget
    have hle : i.clock.wall / hourNanos ≤ clock.wall / hourNanos :=
      Int.ediv_le_ediv (by decide) (hpast i hi)
    rw [Finset.coe_Icc, Set.mem_Icc]
    exact ⟨hfirst hour hbegun, hhour ▸ hle⟩
  calc kept.size
    _ = {hour | ∃ counts, kept.get? hour = some counts}.ncard := kept.size_eq_ncard
    _ ≤ (Finset.Icc first (clock.wall / hourNanos) : Set Int).ncard :=
      Set.ncard_le_ncard hhours (Finset.finite_toSet _)
    _ = (clock.wall / hourNanos + 1 - first).toNat := by
      rw [Set.ncard_coe_finset, Int.card_Icc]

/-- The most hours that a snapshot sums at a time. -/
def maxHours (now : Int) : Nat := if hourNanos ∣ now then 25 else 24

theorem size_hourly_snapshot_le_maxHours (startTime : Moment)
    (hpast : ∀ i ∈ history, i.clock.wall ≤ clock.wall) (hmoment : clock.moment? = some moment) :
    ((stateAfter answer history (started startTime)).snapshot moment).2.hourly.size ≤
      maxHours clock.wall := by
  by_cases hwhole : hourNanos ∣ clock.wall
  · have hfirst : ∀ hour, clock.wall - 24 * hourNanos ≤ hour * hourNanos →
        clock.wall / hourNanos - 24 ≤ hour := by
      intro hour hbegun
      simp only [hourNanos] at hbegun ⊢
      omega
    have hsize := size_hourly_snapshot_le startTime hpast hmoment hfirst
    rw [maxHours, if_pos hwhole]
    omega
  · have hfirst : ∀ hour, clock.wall - 24 * hourNanos ≤ hour * hourNanos →
        clock.wall / hourNanos - 23 ≤ hour := by
      intro hour hbegun
      simp only [hourNanos] at hwhole hbegun ⊢
      omega
    have hsize := size_hourly_snapshot_le startTime hpast hmoment hfirst
    rw [maxHours, if_neg hwhole]
    omega

/-! ### An event in every hour -/

/-- One event in each of 25 hours, each an hour after the one before, and the last one at a time. -/
def everyHour (event : StatsEvent) (last : Int) : List (Timed Call) :=
  (List.range 25).map fun k : Nat => ⟨⟨last - (24 - k : Int) * hourNanos, 0⟩, .record event⟩

theorem wallForward_everyHour (event : StatsEvent) (last : Int) :
    WallForward (everyHour event last) := by
  apply List.pairwise_map.2
  refine List.pairwise_lt_range.imp fun {j k} hlt => ?_
  simp only [hourNanos]
  omega

theorem wall_of_mem_everyHour {event : StatsEvent} {last : Int} {i : Timed Call}
    (h : i ∈ everyHour event last) :
    last - 24 * hourNanos ≤ i.clock.wall ∧ i.clock.wall ≤ last := by
  obtain ⟨k, hk, rfl⟩ := List.mem_map.1 h
  have hlt := List.mem_range.1 hk
  simp only [hourNanos]
  omega

/-- All but the first event are in the window, and the first one is if the time is a whole hour. -/
theorem countP_everyHour (event : StatsEvent) (last : Int) :
    ((everyHour event last).countP fun i =>
      decide (i.call = .record event ∧ last - 24 * hourNanos ≤ hourStart i.clock.wall)) =
        maxHours last := by
  let counted (k : Nat) : Bool :=
    decide (last - 24 * hourNanos ≤ hourStart (last - (24 - k : Int) * hourNanos))
  have hfirst : counted 0 = true ↔ hourNanos ∣ last := by
    simp only [counted, decide_eq_true_eq]
    simp only [hourStart, hourNanos]
    omega
  have hlater : ∀ k ∈ (List.range 24).map Nat.succ, counted k = true := by
    intro k hk
    obtain ⟨j, _, rfl⟩ := List.mem_map.1 hk
    simp only [counted, decide_eq_true_eq]
    simp only [hourStart, hourNanos]
    push_cast
    omega
  calc _
    _ = (List.range 25).countP counted := by
      rw [everyHour, List.countP_map]
      apply List.countP_congr
      intro k _
      simp [counted]
    _ = ((List.range 24).map Nat.succ).length + if counted 0 = true then 1 else 0 := by
      rw [List.range_succ_eq_map, List.countP_cons, List.countP_eq_length.2 hlater]
    _ = maxHours last := by
      rw [List.length_map, List.length_range, maxHours]
      simp only [hfirst]
      split <;> rfl

/-- **Hours in the window.** A snapshot of a run sums 24 hours at most, and 25 at a whole hour.
After one event in each of 25 hours it reports as many as that. -/
theorem hours_in_window (startTime : Moment) :
    (∀ (run before rest : List (Timed Call)) (t : Timed Call), WallForward run →
      (∀ i ∈ run, 0 ≤ i.clock.wall) → run = before ++ t :: rest → t.call = .snapshot →
      t.clock.wall < Clock.calendarEnd →
      ∃ report,
        (transcript answer run (started startTime))[before.length]? =
          some (t, .ok (some report)) ∧
        report.lastDay = total (stateAfter answer (before ++ [t]) (started startTime)).hourly ∧
        (stateAfter answer (before ++ [t]) (started startTime)).hourly.size ≤
          maxHours t.clock.wall) ∧
    ∀ (event : StatsEvent) (last : Int), 24 * hourNanos ≤ last → last < Clock.calendarEnd →
      ∃ report,
        (answer ⟨⟨last, 0⟩, .snapshot⟩
          (stateAfter answer (everyHour event last) (started startTime))).1 =
            .ok (some report) ∧
        report.lastDay.of event = maxHours last := by
  constructor
  · rintro run before rest t hforward hepoch rfl hcall hend
    have ht : t ∈ before ++ t :: rest := List.mem_append_right before List.mem_cons_self
    obtain ⟨moment, hmoment⟩ := Option.isSome_iff_exists.1 (isSome_moment? (hepoch t ht) hend)
    rw [getElem?_transcript, stateAfter_concat, answer_of_snapshot hcall hmoment]
    exact ⟨_, rfl, lastDay_snapshot .., size_hourly_snapshot_le_maxHours startTime
      (WallForward.wall_le hforward) hmoment⟩
  · intro event last hstart hend
    have hlast : 0 ≤ last := le_trans (by decide) hstart
    have hshown : (Clock.mk last 0).moment?.isSome = true := isSome_moment? hlast hend
    obtain ⟨moment, hmoment⟩ := Option.isSome_iff_exists.1 hshown
    have hepoch : ∀ i ∈ everyHour event last, 0 ≤ i.clock.wall := fun i hi =>
      le_trans (Int.sub_nonneg_of_le hstart) (wall_of_mem_everyHour hi).1
    have hpast : ∀ i ∈ everyHour event last, i.clock.wall ≤ last := fun i hi =>
      (wall_of_mem_everyHour hi).2
    have hwindow := reportsWindow_snapshot startTime (wallForward_everyHour event last) hepoch
      hpast hmoment
    rw [answer_of_snapshot rfl hmoment]
    exact ⟨_, rfl, (hwindow.exact event).trans (countP_everyHour event last)⟩

theorem hours_in_window_sample :
    WallForward (everyHour .upload (100000 * 1000000000)) ∧
      (∃ report,
        (transcript answer
          (everyHour .upload (100000 * 1000000000) ++ [⟨⟨100000 * 1000000000, 0⟩, .snapshot⟩])
          (started ⟨0, 0⟩))[25]? =
            some (⟨⟨100000 * 1000000000, 0⟩, .snapshot⟩, .ok (some report))) ∧
      ∃ report,
        (answer ⟨⟨100000 * 1000000000, 0⟩, .snapshot⟩
          (stateAfter answer (everyHour .upload (100000 * 1000000000)) (started ⟨0, 0⟩))).1 =
            .ok (some report) ∧
        report.lastDay.of .upload = 24 := by
  obtain ⟨hrun, hhours⟩ := hours_in_window ⟨0, 0⟩
  obtain ⟨report, hreport, _, _⟩ := hrun _ (everyHour .upload (100000 * 1000000000)) []
    ⟨⟨100000 * 1000000000, 0⟩, .snapshot⟩ (by decide +kernel) (by decide +kernel) rfl rfl
    (by decide)
  exact ⟨wallForward_everyHour _ _, ⟨report, hreport⟩,
    hhours .upload (100000 * 1000000000) (by decide) (by decide)⟩

/-- At a whole hour an event of 24 hours ago is still counted, and that makes 25. -/
theorem not_hours_in_window_at_whole_hour :
    ¬ ∀ (event : StatsEvent) (last : Int), 24 * hourNanos ≤ last → last < Clock.calendarEnd →
      ∃ report,
        (answer ⟨⟨last, 0⟩, .snapshot⟩
          (stateAfter answer (everyHour event last) (started ⟨0, 0⟩))).1 = .ok (some report) ∧
        report.lastDay.of event = 24 := by
  intro hlaw
  obtain ⟨report, hreport, hcount⟩ := hlaw .download (24 * hourNanos) (by decide) (by decide)
  have hreported : ((answer ⟨⟨24 * hourNanos, 0⟩, .snapshot⟩ (stateAfter answer
      (everyHour .download (24 * hourNanos)) (started ⟨0, 0⟩))).1.map
        (Option.map fun report => report.lastDay.of .download)) = .ok (some 25) := by
    decide +kernel
  rw [hreport] at hreported
  simp [Outcome.map, hcount] at hreported

end DeadDrop.Stats
