import DeadDrop.Proofs.Action
import DeadDrop.Proofs.Stats.Counters
import DeadDrop.Proofs.Table
import DeadDrop.Proofs.Transcript

/-!
# What a snapshot counts

A snapshot at a time counts the events whose hour begins within the last 24 hours. It can know no
more than the hour buckets that earlier snapshots have left, but they dropped only hours that had
left the window by then, and time does not go back. So what a history leaves is, as far as any later
snapshot looks, what the same history leaves without its snapshots (`alike_stateAfter`), and there
every bucket holds exactly the events of its hour.

An hour is counted as long as it began within the window, both ends included. At a whole hour the
window therefore holds the beginnings of 25 hours, and at any other time those of 24.
-/

namespace DeadDrop

/-! ### Wall time -/

namespace Clock

/-- Nanoseconds in an hour. -/
def hourNanos : Int := 3600 * 1000000000

/-- The whole hour at which a wall time's hour began. -/
def hourStart (wall : Int) : Int := wall - wall % hourNanos

/-- One more than the last nanosecond of the calendar. -/
def calendarEnd : Int := 8210266876800 * 1000000000

theorem moment?_eq_some_iff {clock : Clock} {moment : Moment} :
    clock.moment? = some moment ↔
      0 ≤ clock.wall ∧ clock.wall < calendarEnd ∧ Moment.ofUnixNanos clock.wall = moment := by
  have hcalendar : 0 ≤ clock.wall →
      ((Moment.ofUnixNanos clock.wall).IsRepresentable ↔ clock.wall < calendarEnd) := by
    intro hepoch
    simp only [Moment.IsRepresentable, Moment.ofUnixNanos, Moment.billion, calendarEnd]
    omega
  unfold moment?
  simp only [Option.ite_none_right_eq_some, Option.some.injEq]
  constructor
  · rintro ⟨⟨hepoch, hrepresentable⟩, hmoment⟩
    exact ⟨hepoch, (hcalendar hepoch).1 hrepresentable, hmoment⟩
  · rintro ⟨hepoch, hend, hmoment⟩
    exact ⟨⟨hepoch, (hcalendar hepoch).2 hend⟩, hmoment⟩

end Clock

/-- The wall clock never goes back from one call to a later one. -/
def WallForward {α : Type} (run : List (Timed α)) : Prop :=
  run.Pairwise fun a b => a.clock.wall ≤ b.clock.wall

instance {α : Type} (run : List (Timed α)) : Decidable (WallForward run) :=
  inferInstanceAs (Decidable (run.Pairwise fun a b => a.clock.wall ≤ b.clock.wall))

theorem WallForward.wall_le {α : Type} {before rest : List (Timed α)} {t : Timed α}
    (h : WallForward (before ++ t :: rest)) : ∀ i ∈ before, i.clock.wall ≤ t.clock.wall :=
  fun i hi => (List.pairwise_append.1 h).2.2 i hi t List.mem_cons_self

theorem WallForward.before {α : Type} {before rest : List (Timed α)} {t : Timed α}
    (h : WallForward (before ++ t :: rest)) : WallForward before :=
  (List.pairwise_append.1 h).1

namespace Stats

open Clock (hourNanos hourStart)

variable {clock : Clock} {moment : Moment}

theorem hourOf_eq (h : clock.moment? = some moment) : hourOf moment = clock.wall / hourNanos := by
  obtain ⟨hepoch, _, rfl⟩ := Clock.moment?_eq_some_iff.1 h
  simp only [hourOf, Moment.ofUnixNanos, Moment.billion, hourSeconds, hourNanos]
  omega

/-- An hour is in the window if it began within it. -/
theorem inWindow_iff (h : clock.moment? = some moment) (hour : Int) :
    inWindow moment hour = true ↔ clock.wall - 24 * hourNanos ≤ hour * hourNanos := by
  obtain ⟨hepoch, _, rfl⟩ := Clock.moment?_eq_some_iff.1 h
  rw [inWindow, decide_eq_true_eq]
  simp only [nanosOf, windowNanos, hourSeconds, Moment.ofUnixNanos, Moment.billion, hourNanos]
  omega

theorem hourStart_eq (wall : Int) : hourStart wall = wall / hourNanos * hourNanos := by
  have hsplit := Int.mul_ediv_add_emod wall hourNanos
  rw [hourStart, Int.mul_comm]
  omega

/-! ### Calls -/

inductive Call where
  | record (event : StatsEvent)
  | hit (client : Text)
  | snapshot
  deriving DecidableEq

def Call.isSnapshot : Call → Bool
  | .snapshot => true
  | .record _ | .hit _ => false

/-- A call, with what a snapshot shows. An event or a snapshot at a time that is no moment does not
come to anything. -/
def answer (i : Timed Call) (s : Stats) : Outcome Empty (Option StatsSnapshot) × Stats :=
  match i.call, i.clock.moment? with
  | .hit client, _ => (.ok none, s.recordRateLimitHit client)
  | .record event, some moment => (.ok none, s.record event moment)
  | .snapshot, some moment => (.ok (some (s.snapshot moment).1), (s.snapshot moment).2)
  | .record _, none | .snapshot, none => (.abort, s)

/-! ### What later snapshots see -/

/-- Two states that no snapshot from a time on can tell apart: they agree but for hours that have
left the window. -/
structure Alike (now : Int) (s t : Stats) : Prop where
  startTime : s.startTime = t.startTime
  lifetime : s.lifetime = t.lifetime
  rateLimitHits : s.rateLimitHits = t.rateLimitHits
  rateLimitedClients : s.rateLimitedClients = t.rateLimitedClients
  hourly : ∀ hour, now - 24 * hourNanos ≤ hour * hourNanos →
    s.hourly.get? hour = t.hourly.get? hour

theorem Alike.refl (now : Int) (s : Stats) : Alike now s s :=
  ⟨rfl, rfl, rfl, rfl, fun _ _ => rfl⟩

theorem Alike.later {now later : Int} {s t : Stats} (h : Alike now s t) (hle : now ≤ later) :
    Alike later s t :=
  { h with hourly := fun hour hhour => h.hourly hour (by omega) }

theorem Alike.record {now : Int} {s t : Stats} (h : Alike now s t) (event : StatsEvent)
    (moment : Moment) : Alike now (s.record event moment) (t.record event moment) where
  startTime := h.startTime
  lifetime := by rw [lifetime_record, lifetime_record, h.lifetime]
  rateLimitHits := h.rateLimitHits
  rateLimitedClients := h.rateLimitedClients
  hourly hour hhour := by
    rw [get?_hourly_record, get?_hourly_record]
    split
    · rename_i heq
      rw [h.hourly (hourOf moment) (heq ▸ hhour)]
    · exact h.hourly hour hhour

theorem Alike.hit {now : Int} {s t : Stats} (h : Alike now s t) (client : Text) :
    Alike now (s.recordRateLimitHit client) (t.recordRateLimitHit client) where
  startTime := h.startTime
  lifetime := h.lifetime
  rateLimitHits := congrArg (· + 1) h.rateLimitHits
  rateLimitedClients := congrArg (countHit client) h.rateLimitedClients
  hourly := h.hourly

/-- A snapshot drops nothing that it or a later one would count. -/
theorem Alike.snapshot_left {s t : Stats} (h : Alike clock.wall s t)
    (hmoment : clock.moment? = some moment) : Alike clock.wall (s.snapshot moment).2 t where
  startTime := h.startTime
  lifetime := h.lifetime
  rateLimitHits := h.rateLimitHits
  rateLimitedClients := h.rateLimitedClients
  hourly hour hhour := by
    rw [get?_hourly_snapshot, ← h.hourly hour hhour]
    have hin := (inWindow_iff hmoment hour).2 hhour
    cases s.hourly.get? hour with
    | none => rfl
    | some counts => rw [Option.filter_some, if_pos hin]

theorem Alike.snapshot_eq {s t : Stats} (h : Alike clock.wall s t)
    (hmoment : clock.moment? = some moment) : (s.snapshot moment).1 = (t.snapshot moment).1 := by
  have hhourly : (s.snapshot moment).2.hourly = (t.snapshot moment).2.hourly := by
    apply Table.ext_of_get?
    intro hour
    rw [get?_hourly_snapshot, get?_hourly_snapshot]
    by_cases hin : inWindow moment hour = true
    · rw [h.hourly hour ((inWindow_iff hmoment hour).1 hin)]
    · cases s.hourly.get? hour <;> cases t.hourly.get? hour <;>
        simp [Option.filter, hin]
  unfold snapshot at hhourly ⊢
  simp only at hhourly ⊢
  rw [hhourly, h.startTime, h.lifetime, h.rateLimitHits, h.rateLimitedClients]

/-- The state after a history is alike to the one without its snapshots, for every time that the
history has reached. -/
theorem alike_stateAfter {history : List (Timed Call)} (hforward : WallForward history)
    {now : Int} (hpast : ∀ i ∈ history, i.clock.wall ≤ now) (s : Stats) :
    Alike now (stateAfter answer history s)
      (stateAfter answer (history.filter fun i => !i.call.isSnapshot) s) := by
  refine stateAfter_induction
    (fun before s' => ∀ now, (∀ i ∈ before, i.clock.wall ≤ now) →
      Alike now s' (stateAfter answer (before.filter fun i => !i.call.isSnapshot) s))
    ?_ ?_ now hpast
  · intro now _
    exact .refl now s
  · intro before i rest hhistory s' ih later hlater
    have hbefore : ∀ j ∈ before, j.clock.wall ≤ i.clock.wall := by
      intro j hj
      rw [hhistory] at hforward
      exact (List.pairwise_append.1 hforward).2.2 j hj i List.mem_cons_self
    have hnow : Alike i.clock.wall s' _ := ih i.clock.wall hbefore
    suffices h : Alike i.clock.wall (answer i s').2
        (stateAfter answer ((before ++ [i]).filter fun j => !j.call.isSnapshot) s) from
      h.later (hlater i (List.mem_append_right before List.mem_cons_self))
    obtain ⟨clock, call⟩ := i
    rw [List.filter_append]
    cases call with
    | record event =>
      rw [List.filter_cons_of_pos rfl, List.filter_nil, stateAfter_concat]
      cases hmoment : clock.moment? with
      | none =>
        simp only [answer, hmoment]
        exact hnow
      | some moment =>
        simp only [answer, hmoment]
        exact hnow.record event moment
    | hit client =>
      rw [List.filter_cons_of_pos rfl, List.filter_nil, stateAfter_concat]
      exact hnow.hit client
    | snapshot =>
      rw [List.filter_cons_of_neg (by simp [Call.isSnapshot]), List.filter_nil, List.append_nil]
      cases hmoment : clock.moment? with
      | none =>
        simp only [answer, hmoment]
        exact hnow
      | some moment =>
        simp only [answer, hmoment]
        exact hnow.snapshot_left hmoment

/-! ### Buckets -/

variable {history : List (Timed Call)}

/-- Without snapshots every bucket holds the events of its hour. -/
theorem of_hourly_stateAfter (hmoments : ∀ i ∈ history, i.clock.moment?.isSome = true)
    (hplain : ∀ i ∈ history, i.call.isSnapshot = false) (startTime : Moment) (event : StatsEvent)
    (hour : Int) :
    (((stateAfter answer history (started startTime)).hourly.get? hour).getD .zero).of event =
      history.countP fun i =>
        decide (i.call = .record event ∧ i.clock.wall / hourNanos = hour) := by
  refine stateAfter_induction
    (fun (before : List (Timed Call)) (s : Stats) =>
      ((s.hourly.get? hour).getD .zero).of event = before.countP fun i =>
        decide (i.call = .record event ∧ i.clock.wall / hourNanos = hour)) ?_ ?_
  · exact EventCounts.of_zero event
  · intro before i rest hhistory s ih
    have hi : i ∈ history := hhistory ▸ List.mem_append_right before List.mem_cons_self
    obtain ⟨moment, hmoment⟩ := Option.isSome_iff_exists.1 (hmoments i hi)
    have hsnapshot := hplain i hi
    have hhour := hourOf_eq hmoment
    obtain ⟨clock, call⟩ := i
    rw [List.countP_append, List.countP_singleton, ← ih]
    cases call with
    | record recorded =>
      simp only [answer, hmoment, get?_hourly_record, hhour]
      by_cases heq : hour = clock.wall / hourNanos
      · simp [heq]
      · simp [heq, Ne.symm heq]
    | hit client => simp [answer]
    | snapshot => exact absurd hsnapshot (by simp [Call.isSnapshot])

theorem sum_countP_eq {α : Type} (p : α → Prop) [DecidablePred p] (hourOf : α → Int) (l : List α)
    {hours : List Int} (hnodup : hours.Nodup) :
    (hours.map fun hour => l.countP fun a => decide (p a ∧ hourOf a = hour)).sum =
      l.countP fun a => decide (p a ∧ hourOf a ∈ hours) := by
  induction l with
  | nil => simp
  | cons a l ih =>
    simp only [List.countP_cons, List.sum_map_add, ih]
    congr 1
    by_cases hp : p a
    · rw [← List.sum_toFinset _ hnodup]
      simp [hp, Finset.sum_ite_eq]
    · simp [hp]

/-- What the buckets hold together. -/
def total (buckets : Table Int EventCounts) : EventCounts :=
  buckets.entries.foldl (fun sum bucket => sum.add bucket.2) .zero

theorem of_total (buckets : Table Int EventCounts) (event : StatsEvent) :
    (total buckets).of event = (buckets.entries.map fun bucket => bucket.2.of event).sum := by
  suffices h : ∀ (entries : List (Int × EventCounts)) (c : EventCounts),
      (entries.foldl (fun sum bucket => sum.add bucket.2) c).of event =
        c.of event + (entries.map fun bucket => bucket.2.of event).sum by
    rw [total, h, EventCounts.of_zero, Nat.zero_add]
  intro entries
  induction entries with
  | nil => exact fun _ => rfl
  | cons bucket rest ih =>
    intro c
    rw [List.foldl_cons, ih, EventCounts.of_add, List.map_cons, List.sum_cons, Nat.add_assoc]

theorem lastDay_snapshot (moment : Moment) (s : Stats) :
    (s.snapshot moment).1.lastDay = total (s.snapshot moment).2.hourly := rfl

/-- If every bucket holds the events of its hour, a snapshot counts those in its window. -/
theorem lastDay_snapshot_of_buckets {s : Stats} {event : StatsEvent}
    (hmoment : clock.moment? = some moment)
    (hbuckets : ∀ hour, ((s.hourly.get? hour).getD .zero).of event = history.countP fun i =>
      decide (i.call = .record event ∧ i.clock.wall / hourNanos = hour)) :
    (s.snapshot moment).1.lastDay.of event = history.countP fun i =>
      decide (i.call = .record event ∧ clock.wall - 24 * hourNanos ≤ hourStart i.clock.wall) := by
  let kept := (s.snapshot moment).2.hourly
  have hkept : ∀ hour, kept.get? hour = (s.hourly.get? hour).filter fun _ => inWindow moment hour :=
    get?_hourly_snapshot moment s
  have hvalues : kept.entries.map (fun bucket => bucket.2.of event) =
      (kept.entries.map Prod.fst).map fun hour => history.countP fun i =>
        decide (i.call = .record event ∧ i.clock.wall / hourNanos = hour) := by
    rw [List.map_map]
    apply List.map_congr_left
    rintro ⟨hour, counts⟩ hmem
    have hget := kept.get?_eq_some_iff.2 hmem
    rw [hkept, Option.filter_eq_some_iff] at hget
    rw [Function.comp_apply, ← hbuckets hour, hget.1]
    rfl
  calc (s.snapshot moment).1.lastDay.of event
    _ = (kept.entries.map fun bucket => bucket.2.of event).sum := by
      rw [lastDay_snapshot, of_total]
    _ = history.countP fun i => decide (i.call = .record event ∧
          i.clock.wall / hourNanos ∈ kept.entries.map Prod.fst) := by
      rw [hvalues, sum_countP_eq _ _ _ kept.nodup_keys]
    _ = _ := by
      apply List.countP_congr
      intro i hi
      simp only [decide_eq_true_eq, Table.mem_keys_iff, hkept, Option.filter_eq_some_iff,
        inWindow_iff hmoment, hourStart_eq]
      constructor
      · rintro ⟨hevent, _, _, hin⟩
        exact ⟨hevent, hin⟩
      · rintro ⟨hevent, hin⟩
        -- the event itself is in the bucket of its hour, so there is one
        have hsome : 0 < ((s.hourly.get? (i.clock.wall / hourNanos)).getD .zero).of event := by
          rw [hbuckets, List.countP_pos_iff]
          exact ⟨i, hi, by simp [hevent]⟩
        cases hget : s.hourly.get? (i.clock.wall / hourNanos) with
        | none => simp [hget] at hsome
        | some counts => exact ⟨hevent, counts, rfl, hin⟩

/-! ### Snapshots in a run -/

/-- What a report owes to the calls before it. -/
structure ReportsWindow (history : List (Timed Call)) (now : Int) (report : StatsSnapshot) :
    Prop where
  /-- An event is counted if its hour began within the last 24 hours. -/
  exact : ∀ event, report.lastDay.of event = history.countP fun i =>
    decide (i.call = .record event ∧ now - 24 * hourNanos ≤ hourStart i.clock.wall)
  none_older : ∀ event, report.lastDay.of event ≤ history.countP fun i =>
    decide (i.call = .record event ∧ now - 24 * hourNanos ≤ i.clock.wall)
  all_recent : ∀ event, (history.countP fun i =>
    decide (i.call = .record event ∧ now - 23 * hourNanos ≤ i.clock.wall)) ≤
      report.lastDay.of event

theorem reportsWindow_of_exact {now : Int} {report : StatsSnapshot}
    (hexact : ∀ event, report.lastDay.of event = history.countP fun i =>
      decide (i.call = .record event ∧ now - 24 * hourNanos ≤ hourStart i.clock.wall)) :
    ReportsWindow history now report where
  exact := hexact
  none_older event := by
    rw [hexact]
    apply List.countP_mono_left
    intro i _ hin
    rw [decide_eq_true_eq, hourStart, hourNanos] at hin
    rw [decide_eq_true_eq, hourNanos]
    exact ⟨hin.1, by omega⟩
  all_recent event := by
    rw [hexact]
    apply List.countP_mono_left
    intro i _ hin
    rw [decide_eq_true_eq, hourNanos] at hin
    rw [decide_eq_true_eq, hourStart, hourNanos]
    exact ⟨hin.1, by omega⟩

theorem isSome_moment? (hepoch : 0 ≤ clock.wall) (hend : clock.wall < Clock.calendarEnd) :
    clock.moment?.isSome = true :=
  Option.isSome_iff_exists.2 ⟨_, Clock.moment?_eq_some_iff.2 ⟨hepoch, hend, rfl⟩⟩

/-- The report of a snapshot is that of the calls before it without their snapshots. -/
theorem snapshot_stateAfter (hforward : WallForward history)
    (hpast : ∀ i ∈ history, i.clock.wall ≤ clock.wall) (hmoment : clock.moment? = some moment)
    (s : Stats) :
    ((stateAfter answer history s).snapshot moment).1 =
      ((stateAfter answer (history.filter fun i => !i.call.isSnapshot) s).snapshot moment).1 :=
  (alike_stateAfter hforward hpast s).snapshot_eq hmoment

theorem reportsWindow_snapshot (startTime : Moment) (hforward : WallForward history)
    (hepoch : ∀ i ∈ history, 0 ≤ i.clock.wall)
    (hpast : ∀ i ∈ history, i.clock.wall ≤ clock.wall) (hmoment : clock.moment? = some moment) :
    ReportsWindow history clock.wall
      ((stateAfter answer history (started startTime)).snapshot moment).1 := by
  have hend := (Clock.moment?_eq_some_iff.1 hmoment).2.1
  apply reportsWindow_of_exact
  intro event
  rw [snapshot_stateAfter hforward hpast hmoment]
  rw [lastDay_snapshot_of_buckets hmoment (of_hourly_stateAfter ?_ ?_ startTime event)]
  · rw [List.countP_filter]
    apply List.countP_congr
    intro i _
    simp only [Bool.and_eq_true, decide_eq_true_eq, Bool.not_eq_true']
    constructor
    · exact fun h => h.1
    · rintro ⟨hcall, hin⟩
      exact ⟨⟨hcall, hin⟩, by rw [hcall]; rfl⟩
  · intro i hi
    have hi' := (List.mem_filter.1 hi).1
    exact isSome_moment? (hepoch i hi') ((hpast i hi').trans_lt hend)
  · intro i hi
    simpa using (List.mem_filter.1 hi).2

theorem answer_of_snapshot {t : Timed Call} (hcall : t.call = .snapshot)
    (hmoment : t.clock.moment? = some moment) (s : Stats) :
    answer t s = (.ok (some (s.snapshot moment).1), (s.snapshot moment).2) := by
  simp only [answer, hcall, hmoment]

/-- **The rolling window.** In a run whose wall clock does not go back, a snapshot counts of each
kind the events whose hour began within the last 24 hours, whatever snapshots were taken before. -/
theorem snapshots_count_window (startTime : Moment) {run before rest : List (Timed Call)}
    {t : Timed Call} (hforward : WallForward run) (hepoch : ∀ i ∈ run, 0 ≤ i.clock.wall)
    (hrun : run = before ++ t :: rest) (hcall : t.call = .snapshot)
    (hend : t.clock.wall < Clock.calendarEnd) :
    ∃ report,
      (transcript answer run (started startTime))[before.length]? =
        some (t, .ok (some report)) ∧
      ReportsWindow before t.clock.wall report ∧
      ∀ run' before' rest', WallForward run' → run' = before' ++ t :: rest' →
        (before'.filter fun i => !i.call.isSnapshot) =
          (before.filter fun i => !i.call.isSnapshot) →
        (transcript answer run' (started startTime))[before'.length]? =
          some (t, .ok (some report)) := by
  subst hrun
  have ht : t ∈ before ++ t :: rest := List.mem_append_right before List.mem_cons_self
  obtain ⟨moment, hmoment⟩ := Option.isSome_iff_exists.1 (isSome_moment? (hepoch t ht) hend)
  refine ⟨((stateAfter answer before (started startTime)).snapshot moment).1, ?_, ?_, ?_⟩
  · rw [getElem?_transcript, answer_of_snapshot hcall hmoment]
  · have hbefore : ∀ i ∈ before, 0 ≤ i.clock.wall :=
      fun i hi => hepoch i (List.mem_append_left _ hi)
    exact reportsWindow_snapshot startTime hforward.before hbefore hforward.wall_le hmoment
  · rintro run' before' rest' hforward' rfl hsame
    rw [getElem?_transcript, answer_of_snapshot hcall hmoment,
      snapshot_stateAfter hforward'.before hforward'.wall_le hmoment, hsame,
      ← snapshot_stateAfter hforward.before hforward.wall_le hmoment]

/-- Three events, one more than a day before the others, between snapshots. -/
def sampleRun : List (Timed Call) :=
  [(0, .record .download), (1800, .snapshot), (5400, .record .download), (86400, .snapshot),
    (90000, .record .upload), (90000, .snapshot)].map fun p =>
      ⟨⟨p.1 * 1000000000, 0⟩, p.2⟩

theorem snapshots_count_window_sample :
    WallForward sampleRun ∧ (∀ i ∈ sampleRun, 0 ≤ i.clock.wall) ∧
      ∃ report,
        (transcript answer sampleRun (started ⟨0, 0⟩))[5]? =
          some (⟨⟨90000 * 1000000000, 0⟩, .snapshot⟩, .ok (some report)) ∧
        ReportsWindow (sampleRun.take 5) (90000 * 1000000000) report := by
  have hforward : WallForward sampleRun := by decide
  have hepoch : ∀ i ∈ sampleRun, 0 ≤ i.clock.wall := by decide
  have hrun : sampleRun = sampleRun.take 5 ++ ⟨⟨90000 * 1000000000, 0⟩, .snapshot⟩ :: [] := rfl
  obtain ⟨report, hreport, hwindow, _⟩ :=
    snapshots_count_window ⟨0, 0⟩ hforward hepoch hrun rfl (by decide)
  exact ⟨hforward, hepoch, report, hreport, hwindow⟩

end Stats

end DeadDrop
