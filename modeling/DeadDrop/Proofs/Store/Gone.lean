import DeadDrop.Proofs.Store.History
import DeadDrop.Proofs.Store.Transaction

/-!
# What is gone stays gone

A read that finds nothing leaves nothing to be found: there was no entry under the key, or its time
was over and the read has removed it. So it does not matter what the clocks show afterwards. A wall
clock that is set back to a time before the expiry brings nothing back, since the entry is no longer
there to be looked at, and only a write puts another one in its place.

What carries a run is therefore the absence of the entry and not the end of its time.
-/

namespace DeadDrop

/-! ### Runs of a backend -/

namespace Backend

open DeadDrop.Action

variable {σ β : Type}

/-- A view of the entries of a backend by which what is absent stays absent. It is not found at any
time, what a read does not find is absent after it, and no call brings an entry but a write of its
key. -/
structure AbsenceView [Backend σ] (entries : σ → Table Text β) (ended : Clock → β → Bool) : Prop
    extends SafeView entries ended where
  read_of_absent : ∀ (clock : Clock) {key : Text} {s : σ},
    (entries s).get? key = none → (Backend.read clock key s).1 = .ok none
  absent_of_read : ∀ {clock : Clock} {key : Text} {s : σ},
    (Backend.read clock key s).1 = .ok none → (entries (Backend.read clock key s).2).get? key = none
  write_other : ∀ (clock : Clock) {key other : Text}, key ≠ other →
    ∀ (value : Bytes) (ttl : Option Nat) (s : σ),
      (entries (Backend.write clock other value ttl s).2).get? key = (entries s).get? key
  absent_remove : ∀ (clock : Clock) (other : Text) {key : Text} {s : σ},
    (entries s).get? key = none → (entries (Backend.remove clock other s).2).get? key = none

theorem Reclaimed.absent {entries : σ → Table Text β} {ended : β → Bool} {s s' : σ}
    (h : Reclaimed entries ended s s') {key : Text} (habsent : (entries s).get? key = none) :
    (entries s').get? key = none := by
  rcases h key with hsame | ⟨hgone, _⟩
  · rw [hsame, habsent]
  · exact hgone

/-- A write of the key that has succeeded. -/
def Wrote (key : Text) (entry : Timed Call × Outcome StorageFault Reply) : Prop :=
  ∃ clock value ttl, entry = (⟨clock, .write key value ttl⟩, .ok .written)

/-- Once a read has found nothing under a key, no later read of the key finds anything until a write
of the key has succeeded. -/
def StaysGone (log : List (Timed Call × Outcome StorageFault Reply)) : Prop :=
  ∀ (key : Text) (c d : Clock)
    (before between rest : List (Timed Call × Outcome StorageFault Reply))
    (answer : Outcome StorageFault Reply),
    log = before ++ (⟨c, .read key⟩, .ok (.value none)) ::
      (between ++ (⟨d, .read key⟩, answer) :: rest) →
    (∀ entry ∈ between, ¬ Wrote key entry) → answer = .ok (.value none)

namespace AbsenceView

variable [Backend σ] {entries : σ → Table Text β} {ended : Clock → β → Bool} {key : Text}

/-- One call keeps an absence, unless it is a write of the key and succeeds. -/
theorem perform (h : AbsenceView entries ended) (t : Timed Call) {s : σ}
    (habsent : (entries s).get? key = none)
    (hwrote : ¬ Wrote key (t, (t.call.perform t.clock s).1)) :
    (entries (t.call.perform t.clock s).2).get? key = none := by
  obtain ⟨clock, call⟩ := t
  cases call with
  | read other =>
    rw [Call.perform, bind_pure_apply]
    exact (h.read clock other s).absent habsent
  | write other value ttl =>
    simp only [Call.perform, bind_pure_apply] at hwrote ⊢
    by_cases hkey : key = other
    · subst hkey
      have hfails : ∀ done, (Backend.write clock key value ttl s).1 ≠ .ok done := by
        intro done hdone
        exact hwrote ⟨clock, value, ttl, by rw [hdone]; rfl⟩
      exact (h.write clock key value ttl s hfails).absent habsent
    · exact (h.write_other clock hkey value ttl s).trans habsent
  | remove other =>
    rw [Call.perform, bind_pure_apply]
    exact h.absent_remove clock other habsent
  | sweep =>
    rw [Call.perform, bind_pure_apply]
    exact (h.sweep clock s).absent habsent

theorem perform_read_of_absent (h : AbsenceView entries ended) (clock : Clock) {s : σ}
    (habsent : (entries s).get? key = none) :
    ((Call.read key).perform clock s).1 = .ok (.value none) := by
  rw [Call.perform, bind_pure_apply, h.read_of_absent clock habsent]
  rfl

theorem absent_of_perform_read (h : AbsenceView entries ended) {clock : Clock} {s : σ}
    (hnone : ((Call.read key).perform clock s).1 = .ok (.value none)) :
    (entries ((Call.read key).perform clock s).2).get? key = none := by
  rw [Call.perform, bind_pure_apply] at hnone ⊢
  apply h.absent_of_read
  cases hread : (Backend.read clock key s).1 with
  | ok found =>
    rw [hread] at hnone
    exact congrArg Outcome.ok (Reply.value.inj (Outcome.ok.inj hnone))
  | error fault => simp [hread, Outcome.map] at hnone
  | abort => simp [hread, Outcome.map] at hnone

/-- A run keeps an absence if no write of the key succeeds in it. -/
theorem absent_of_calls (h : AbsenceView entries ended) {run : List (Timed Call)} {s : σ}
    (habsent : (entries s).get? key = none) (hwrote : ∀ entry ∈ calls run s, ¬ Wrote key entry) :
    (entries (stateAfter (fun t => t.call.perform t.clock) run s)).get? key = none := by
  induction run generalizing s with
  | nil => exact habsent
  | cons t run ih =>
    have hkept := h.perform t habsent (hwrote _ List.mem_cons_self)
    exact ih hkept fun entry hentry => hwrote entry (List.mem_cons_of_mem _ hentry)

theorem staysGone (h : AbsenceView entries ended) (run : List (Timed Call)) (s : σ) :
    StaysGone (calls run s) := by
  intro key c d before between rest answer hlog hwrote
  -- the first read leaves an absence, and the calls up to the second one keep it
  obtain ⟨history, later, -, hnone, hlater⟩ := exists_of_transcript_eq hlog
  have hgone := h.absent_of_perform_read hnone.symm
  obtain ⟨between', _, rfl, rfl, -⟩ := exists_of_transcript_eq hlater.symm
  exact h.perform_read_of_absent d (h.absent_of_calls hgone hwrote)

end AbsenceView

end Backend

open Backend

/-! ### Rows and memory -/

namespace Rows

theorem absenceView : AbsenceView Rows.table fun clock => isOver (millis clock) where
  toSafeView := safeView
  read_of_absent clock key rows habsent := by
    change (read clock key rows).1 = _
    rw [read, habsent]
  absent_of_read {clock key rows} hnone := by
    change (read clock key rows).2.table.get? key = none
    change (read clock key rows).1 = _ at hnone
    rcases read_cases clock key rows with ⟨o, hkept, _, habsent⟩ | ⟨b, _, _, hremoved⟩
    · rw [hkept] at hnone ⊢
      exact habsent hnone
    · rw [hremoved]
      exact (Table.get?_erase ..).trans (if_pos rfl)
  write_other clock key other hkey value ttl rows := by
    have hothers := (contained_write clock (fun _ => clock) other value ttl rows).others
    rw [Call.perform, Action.bind_pure_apply] at hothers
    exact hothers other rfl key hkey
  absent_remove clock other key rows habsent := by
    change (rows.table.erase other).get? key = none
    rw [Table.get?_erase, habsent, ite_self]

end Rows

namespace Memory

theorem absenceView :
    AbsenceView Memory.entries fun clock => MemoryEntry.isOver clock.monotonic where
  toSafeView := safeView
  read_of_absent clock key m habsent := by
    change (read clock key m).1 = _
    rw [read, habsent]
  absent_of_read {clock key m} hnone := by
    apply Option.eq_none_iff_forall_ne_some.2
    intro entry hentry
    obtain ⟨hbefore, hlive⟩ := get?_read.1 hentry
    have hover := safeView.over_of_not_found hnone hbefore
    rw [hlive rfl] at hover
    cases hover
  write_other clock key other hkey value ttl m := by
    change (write clock other value ttl m).2.entries.get? key = m.entries.get? key
    have hinsert : ∀ entry, (m.entries.insert other entry).get? key = m.entries.get? key :=
      fun entry => (Table.get?_insert ..).trans (if_neg hkey)
    unfold write
    cases ttl with
    | none => exact hinsert _
    | some ttl =>
      simp only
      split
      · exact hinsert _
      · rfl
  absent_remove clock other key m habsent := by
    change (m.entries.erase other).get? key = none
    rw [Table.get?_erase, habsent, ite_self]

end Memory

/-- **What is gone stays gone.** In every run, whatever the clocks show from one call to the next
and whatever was held at first, once a read has found nothing under a key, reads of the key find
nothing until a write of the key has succeeded. -/
theorem gone_until_written (run : List (Timed Call)) :
    (∀ rows : Rows, StaysGone (calls run rows)) ∧ ∀ m : Memory, StaysGone (calls run m) :=
  ⟨Rows.absenceView.staysGone run, Memory.absenceView.staysGone run⟩

/-- Two reads, the second one after the wall clock was set back. -/
def setBackRun : List (Timed Call) :=
  [⟨⟨2000000000, 0⟩, .read ['a']⟩, ⟨⟨500000000, 1⟩, .read ['a']⟩]

/-- At half a second the row can still be read, but not after a read at two seconds. -/
theorem gone_until_written_sample :
    ((Call.read ['a']).perform ⟨500000000, 1⟩ Rows.sampleRows).1 = .ok (.value (some [1])) ∧
      ∃ answer,
        calls setBackRun Rows.sampleRows =
          [(⟨⟨2000000000, 0⟩, .read ['a']⟩, .ok (.value none)),
            (⟨⟨500000000, 1⟩, .read ['a']⟩, answer)] ∧
        answer = .ok (.value none) := by
  have hgone : ((Call.read ['a']).perform ⟨2000000000, 0⟩ Rows.sampleRows).1 =
      .ok (.value none) := by decide +kernel
  obtain ⟨answer, hcalls⟩ : ∃ answer, calls setBackRun Rows.sampleRows =
      [(⟨⟨2000000000, 0⟩, .read ['a']⟩, .ok (.value none)),
        (⟨⟨500000000, 1⟩, .read ['a']⟩, answer)] := by
    rw [← hgone]
    exact ⟨_, rfl⟩
  refine ⟨by decide +kernel, answer, hcalls, ?_⟩
  exact (gone_until_written setBackRun).1 Rows.sampleRows ['a'] _ _ [] [] [] answer hcalls (by simp)

end DeadDrop
