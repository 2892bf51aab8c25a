import DeadDrop.Proofs.Stats.Window
import Mathlib.Algebra.Order.BigOperators.Group.List

/-!
# What a snapshot says about all that was

A snapshot reports the lifetime counts, the window of the last 24 hours and the clients that were
denied. The three are kept apart: an event counts for its kind and for its hour, a hit for its
client and for the number of hits, and a snapshot drops hours. So they have to be tied together
along the run, and this without any help from the clock, which may go back and make an hour come
again that a snapshot has dropped.

The tie is that nothing counts twice. The lifetime counts are exactly the events so far, and a
bucket holds no more than the events of its hour, since a dropped one starts again from zero; so all
buckets together, whichever are left, hold no more events than there were. The lines of the clients
are the tally of the hits.
-/

namespace DeadDrop.Stats

open Clock (hourNanos)

/-- A call with its answer. -/
abbrev Answered : Type := Timed Call × Outcome Empty (Option StatsSnapshot)

/-- The client of a hit. -/
def Call.client? : Call → Option Text
  | .hit client => some client
  | .record _ | .snapshot => none

/-- The clients of the hits so far, one for each hit. -/
def hitClients (earlier : List Answered) : List Text :=
  earlier.filterMap fun entry => entry.1.call.client?

/-- The call has recorded an event of a kind. -/
def Answered.Records (event : StatsEvent) (entry : Answered) : Prop :=
  entry.1.call = .record event ∧ entry.2 = .ok none

instance (event : StatsEvent) (entry : Answered) : Decidable (entry.Records event) :=
  inferInstanceAs (Decidable (_ ∧ _))

/-- What a report owes to all that came before it. -/
structure ReportsLifetime (earlier : List Answered) (report : StatsSnapshot) : Prop where
  /-- The lifetime counts are the numbers of events. -/
  lifetime : ∀ event, report.lifetime.of event =
    earlier.countP fun entry => decide (entry.Records event)
  /-- No more of them happened in the last day. -/
  lastDay : ∀ event, report.lastDay.of event ≤ report.lifetime.of event
  /-- Every hit is the hit of some client. -/
  hits : report.rateLimitHits = (report.rateLimitedClients.map Prod.snd).sum
  /-- A client has one line. -/
  once : (report.rateLimitedClients.map Prod.fst).Nodup
  /-- The line of a client has the number of its hits. -/
  clients : ∀ client hits, (client, hits) ∈ report.rateLimitedClients ↔
    client ∈ hitClients earlier ∧ hits = (hitClients earlier).count client
  /-- Who was hit first comes first. -/
  order : (report.rateLimitedClients.map Prod.fst).Pairwise fun a b =>
    (hitClients earlier).idxOf a < (hitClients earlier).idxOf b

/-! ### Along a run -/

/-- What ties the counts to the calls so far. -/
structure Tallies (earlier : List Answered) (s : Stats) : Prop where
  lifetime : ∀ event, s.lifetime.of event =
    earlier.countP fun entry => decide (entry.Records event)
  hourly : ∀ event hour, ((s.hourly.get? hour).getD .zero).of event ≤
    earlier.countP fun entry =>
      decide (entry.Records event ∧ entry.1.clock.wall / hourNanos = hour)
  rateLimitHits : s.rateLimitHits = (hitClients earlier).length
  rateLimitedClients : s.rateLimitedClients = tally (hitClients earlier)

theorem tallies_started (startTime : Moment) : Tallies [] (started startTime) where
  lifetime event := EventCounts.of_zero event
  hourly event _ := Nat.le_of_eq (EventCounts.of_zero event)
  rateLimitHits := rfl
  rateLimitedClients := rfl

variable {earlier : List Answered} {s : Stats} {clock : Clock} {moment : Moment}

theorem Tallies.record (h : Tallies earlier s) (event : StatsEvent)
    (hmoment : clock.moment? = some moment) :
    Tallies (earlier ++ [(⟨clock, .record event⟩, .ok none)]) (s.record event moment) where
  lifetime other := by
    simp [h.lifetime other, Answered.Records, List.countP_append]
  hourly other hour := by
    have hother := h.hourly other hour
    rw [get?_hourly_record, hourOf_eq hmoment]
    by_cases hhour : hour = clock.wall / hourNanos
    · subst hhour
      simpa [Answered.Records, List.countP_append] using hother
    · simpa [Answered.Records, List.countP_append, hhour, Ne.symm hhour] using hother
  rateLimitHits := by simp [Stats.record, h.rateLimitHits, hitClients, Call.client?]
  rateLimitedClients := by simp [Stats.record, h.rateLimitedClients, hitClients, Call.client?]

theorem Tallies.hit (h : Tallies earlier s) (clock : Clock) (client : Text) :
    Tallies (earlier ++ [(⟨clock, .hit client⟩, .ok none)]) (s.recordRateLimitHit client) where
  lifetime event := by
    simp [recordRateLimitHit, h.lifetime event, Answered.Records, List.countP_append]
  hourly event hour := by
    simpa [Answered.Records, List.countP_append] using h.hourly event hour
  rateLimitHits := by simp [recordRateLimitHit, h.rateLimitHits, hitClients, Call.client?]
  rateLimitedClients := by
    simp [recordRateLimitHit, h.rateLimitedClients, hitClients, Call.client?, tally_concat]

/-- A call that records nothing and hits no client changes none of the numbers, and hours may be
dropped. -/
theorem Tallies.idle (h : Tallies earlier s) {t : Timed Call}
    {o : Outcome Empty (Option StatsSnapshot)} (hrecords : ∀ event, ¬ Answered.Records event (t, o))
    (hclient : t.call.client? = none) {hourly : Table Int EventCounts}
    (hhourly : ∀ hour, hourly.get? hour = s.hourly.get? hour ∨ hourly.get? hour = none) :
    Tallies (earlier ++ [(t, o)]) { s with hourly } where
  lifetime event := by simp [h.lifetime event, hrecords event]
  hourly event hour := by
    have hbefore := h.hourly event hour
    rcases hhourly hour with hkept | hdropped
    · simpa [hrecords event, hkept] using hbefore
    · simp [hdropped]
  rateLimitHits := by simp [h.rateLimitHits, hitClients, hclient]
  rateLimitedClients := by simp [h.rateLimitedClients, hitClients, hclient]

/-- One call more. -/
theorem Tallies.answer (h : Tallies earlier s) (t : Timed Call) :
    Tallies (earlier ++ [(t, (answer t s).1)]) (answer t s).2 := by
  obtain ⟨clock, call⟩ := t
  cases call with
  | hit client => exact h.hit clock client
  | record event =>
    cases hmoment : clock.moment? with
    | some moment =>
      simp only [Stats.answer, hmoment]
      exact h.record event hmoment
    | none =>
      simp only [Stats.answer, hmoment]
      exact h.idle (fun _ hrecords => by cases hrecords.2) rfl fun _ => .inl rfl
  | snapshot =>
    have hrecords : ∀ o event, ¬ Answered.Records event (⟨clock, .snapshot⟩, o) :=
      fun _ _ hrecords => by cases hrecords.1
    cases hmoment : clock.moment? with
    | some moment =>
      simp only [Stats.answer, hmoment]
      refine h.idle (hrecords _) rfl fun hour => ?_
      have hget := get?_hourly_snapshot moment s hour
      cases hin : inWindow moment hour with
      | true =>
        refine .inl (hget.trans ?_)
        rw [hin]
        cases s.hourly.get? hour <;> rfl
      | false =>
        refine .inr (hget.trans ?_)
        rw [hin]
        cases s.hourly.get? hour <;> rfl
    | none =>
      simp only [Stats.answer, hmoment]
      exact h.idle (hrecords _) rfl fun _ => .inl rfl

theorem tallies_transcript (startTime : Moment) (history : List (Timed Call)) :
    Tallies (transcript Stats.answer history (started startTime))
      (stateAfter Stats.answer history (started startTime)) := by
  induction history using List.reverseRecOn with
  | nil => exact tallies_started startTime
  | append_singleton history t ih =>
    rw [transcript_append, stateAfter_concat]
    exact ih.answer t

/-! ### Snapshots -/

/-- The buckets that a snapshot sums hold no more events of a kind than there were. -/
theorem Tallies.lastDay_le (h : Tallies earlier s) (moment : Moment) (event : StatsEvent) :
    (s.snapshot moment).1.lastDay.of event ≤ s.lifetime.of event := by
  let kept := (s.snapshot moment).2.hourly
  have hbucket : ∀ bucket ∈ kept.entries, bucket.2.of event ≤ earlier.countP fun entry =>
      decide (entry.Records event ∧ entry.1.clock.wall / hourNanos = bucket.1) := by
    rintro ⟨hour, counts⟩ hmem
    have hget := kept.get?_eq_some_iff.2 hmem
    rw [get?_hourly_snapshot, Option.filter_eq_some_iff] at hget
    have hle := h.hourly event hour
    rwa [hget.1] at hle
  calc (s.snapshot moment).1.lastDay.of event
    _ = (kept.entries.map fun bucket => bucket.2.of event).sum := by
      rw [lastDay_snapshot, of_total]
    _ ≤ (kept.entries.map fun bucket => earlier.countP fun entry =>
          decide (entry.Records event ∧ entry.1.clock.wall / hourNanos = bucket.1)).sum :=
      List.sum_le_sum hbucket
    _ = ((kept.entries.map Prod.fst).map fun hour => earlier.countP fun entry =>
          decide (entry.Records event ∧ entry.1.clock.wall / hourNanos = hour)).sum := by
      rw [List.map_map]
      rfl
    _ = earlier.countP fun entry => decide (entry.Records event ∧
          entry.1.clock.wall / hourNanos ∈ kept.entries.map Prod.fst) :=
      sum_countP_eq _ _ _ kept.nodup_keys
    _ ≤ earlier.countP fun entry => decide (entry.Records event) := by
      apply List.countP_mono_left
      intro entry _ hin
      rw [decide_eq_true_eq] at hin ⊢
      exact hin.1
    _ = s.lifetime.of event := (h.lifetime event).symm

theorem Tallies.reportsLifetime (h : Tallies earlier s) (moment : Moment) :
    ReportsLifetime earlier (s.snapshot moment).1 where
  lifetime := h.lifetime
  lastDay := h.lastDay_le moment
  hits := by
    change s.rateLimitHits = (s.rateLimitedClients.map Prod.snd).sum
    rw [h.rateLimitHits, h.rateLimitedClients, sum_tally]
  once := by
    change (s.rateLimitedClients.map Prod.fst).Nodup
    rw [h.rateLimitedClients]
    exact nodup_tally _
  clients client hits := by
    change (client, hits) ∈ s.rateLimitedClients ↔ _
    rw [h.rateLimitedClients]
    exact mem_tally_iff client _ hits
  order := by
    change (s.rateLimitedClients.map Prod.fst).Pairwise _
    rw [h.rateLimitedClients]
    exact pairwise_tally _

/-- At a time of the calendar every call is answered, and a snapshot shows a report. -/
theorem answer_in_calendar {t : Timed Call} (hepoch : 0 ≤ t.clock.wall)
    (hend : t.clock.wall < Clock.calendarEnd) (s : Stats) :
    ∃ shown, (answer t s).1 = .ok shown ∧ shown.isSome = t.call.isSnapshot := by
  obtain ⟨moment, hmoment⟩ := Option.isSome_iff_exists.1 (isSome_moment? hepoch hend)
  obtain ⟨clock, call⟩ := t
  cases call with
  | hit client => exact ⟨none, rfl, rfl⟩
  | record event => exact ⟨none, by simp only [answer, hmoment], rfl⟩
  | snapshot => exact ⟨some _, by rw [answer_of_snapshot rfl hmoment], rfl⟩

/-- **What a snapshot says about all that was.** In every run, wherever the wall clock goes, a call
at a time of the calendar is answered, a snapshot and no other call with a report. Every report has
the exact lifetime counts and the exact clients of what came before it, the clients in the order of
their first hits, and it counts no more in the last day than in the lifetime. -/
theorem snapshots_report_lifetime (startTime : Moment) (run : List (Timed Call)) :
    (∀ entry ∈ transcript answer run (started startTime),
      0 ≤ entry.1.clock.wall → entry.1.clock.wall < Clock.calendarEnd →
        ∃ shown, entry.2 = .ok shown ∧ shown.isSome = entry.1.call.isSnapshot) ∧
    ∀ before rest t report,
      transcript answer run (started startTime) = before ++ (t, .ok (some report)) :: rest →
        ReportsLifetime before report := by
  constructor
  · intro entry hentry hepoch hend
    obtain ⟨before, rest, hsplit⟩ := List.append_of_mem hentry
    obtain ⟨history, _, -, hanswer, -⟩ := exists_of_transcript_eq hsplit
    rw [hanswer]
    exact answer_in_calendar hepoch hend _
  · intro before rest t report hsplit
    obtain ⟨history, _, rfl, hanswer, -⟩ := exists_of_transcript_eq hsplit
    have htallies := tallies_transcript startTime history
    obtain ⟨clock, call⟩ := t
    cases call with
    | hit client => cases hanswer
    | record event => cases hmoment : clock.moment? <;> simp [answer, hmoment] at hanswer
    | snapshot =>
      cases hmoment : clock.moment? with
      | none => simp [answer, hmoment] at hanswer
      | some moment =>
        simp only [answer, hmoment, Outcome.ok.injEq, Option.some.injEq] at hanswer
        rw [hanswer]
        exact htallies.reportsLifetime moment

/-- The clock goes back behind a snapshot that has dropped the hour of the first download. -/
def backwardRun : List (Timed Call) :=
  [(100000, .record .download), (100000, .hit ['b']), (200000, .snapshot), (100000, .hit ['a']),
    (100001, .record .download), (100001, .hit ['b']), (100002, .snapshot)].map fun p =>
      ⟨⟨p.1 * 1000000000, 0⟩, p.2⟩

theorem snapshots_report_lifetime_sample :
    ∃ before t report,
      transcript answer backwardRun (started ⟨0, 0⟩) = before ++ [(t, .ok (some report))] ∧
      ReportsLifetime before report ∧ report.lifetime.of .download = 2 ∧
      report.lastDay.of .download = 1 ∧ report.rateLimitedClients = [(['b'], 2), (['a'], 1)] := by
  obtain ⟨report, hlog, hreport⟩ : ∃ report,
      transcript answer backwardRun (started ⟨0, 0⟩) =
        transcript answer (backwardRun.take 6) (started ⟨0, 0⟩) ++
          [(⟨⟨100002 * 1000000000, 0⟩, .snapshot⟩, .ok (some report))] ∧
      report = ⟨⟨2, 0, 0⟩, ⟨1, 0, 0⟩, 3, [(['b'], 2), (['a'], 1)], ⟨0, 0⟩⟩ :=
    ⟨_, rfl, by decide +kernel⟩
  have howed := (snapshots_report_lifetime ⟨0, 0⟩ backwardRun).2 _ [] _ report hlog
  exact ⟨_, _, report, hlog, howed, by rw [hreport]; rfl, by rw [hreport]; rfl, by rw [hreport]⟩

end DeadDrop.Stats
