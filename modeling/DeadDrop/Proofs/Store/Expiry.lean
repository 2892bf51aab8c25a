import DeadDrop.Proofs.Store.Faithful
import DeadDrop.Proofs.Store.History

/-!
# When a row expires

Three times are cut to whole milliseconds: that of the write, the time to live and that of the read.
The cut of the read makes no difference, since a time is short of a whole number of milliseconds
exactly if its own whole milliseconds are. So a row has one moment at which it expires, its deadline,
and the other two cuts put it before the end of the time to live, by less than two milliseconds.

Until the deadline nothing but an edit of the key can remove the row. What is live under the key at
the time of the read is therefore the same after all other calls, and a read tells just this.
-/

namespace DeadDrop.Rows

open DeadDrop.Action Backend

variable {start later clock : Clock} {key : Text} {value found : Bytes} {ttl : Nat} {rows rows' : Rows}
  {run : List (Timed Call)}

/-! ### Calls in between -/

theorem live_perform (clock : Clock) {call : Call} (hcall : ¬ call.Edits key) (rows : Rows) :
    live clock key (call.perform clock rows).2 = live clock key rows := by
  cases call with
  | read other =>
    rw [Call.perform, bind_pure_apply]
    exact keeps_read clock key other rows
  | write other value ttl =>
    rw [Call.perform, bind_pure_apply]
    exact keeps_write clock (Ne.symm hcall) value ttl rows
  | remove other =>
    rw [Call.perform, bind_pure_apply]
    exact Table.live_erase_of_ne (Ne.symm hcall) rows.table
  | sweep =>
    rw [Call.perform, bind_pure_apply]
    exact keeps_sweep clock key rows

/-- The rows that a run of calls leaves. -/
def after (run : List (Timed Call)) (rows : Rows) : Rows :=
  stateAfter (fun t => t.call.perform t.clock) run rows

theorem live_after (hrun : ∀ t ∈ run, t.clock.wall ≤ later.wall ∧ ¬ t.call.Edits key)
    (rows : Rows) : live later key (after run rows) = live later key rows := by
  induction run generalizing rows with
  | nil => rfl
  | cons t run ih =>
    obtain ⟨hle, hedits⟩ := hrun t List.mem_cons_self
    have hstep : Alike live t.clock key (t.call.perform t.clock rows).2 rows :=
      live_perform t.clock hedits rows
    calc live later key (after (t :: run) rows)
        = live later key (t.call.perform t.clock rows).2 :=
          ih (fun t ht => hrun t (List.mem_cons_of_mem _ ht)) _
      _ = live later key rows := alike_of_wall_le hle hstep

/-! ### The deadline -/

/-- The millisecond in which a row expires. -/
def deadline (start : Clock) (ttl : Nat) : Nat :=
  min (millis start + ttl / Row.million) (Row.millisLimit - 1)

/-- The expiry fits into 64 bits of milliseconds, or they are not used up at the time of the
read. -/
def InRange (start : Clock) (ttl : Nat) (later : Clock) : Prop :=
  millis start + ttl / Row.million < Row.millisLimit ∨ millis later + 1 < Row.millisLimit

theorem lasts_iff (hlater : 0 ≤ later.wall) :
    Lasts start ttl later ↔ later.wall < (deadline start ttl * Row.million : Nat) := by
  have hmillis : millis later < deadline start ttl ↔
      later.wall < (deadline start ttl * Row.million : Nat) := by
    simp only [millis, Row.million]
    omega
  rw [← hmillis]
  exact and_iff_right hlater

theorem deadline_le (hstart : 0 ≤ start.wall) :
    ((deadline start ttl * Row.million : Nat) : Int) ≤ start.wall + ttl := by
  simp only [deadline, millis, Row.million]
  omega

theorem lasts_of_lt (hstart : 0 ≤ start.wall) (hlater : 0 ≤ later.wall)
    (hrange : InRange start ttl later)
    (h : later.wall + 2 * Row.million < start.wall + ttl) : Lasts start ttl later := by
  refine ⟨hlater, ?_⟩
  simp only [InRange, millis, Row.million] at *
  omega

theorem lasts_iff_of_whole (hstart : 0 ≤ start.wall) (hlater : 0 ≤ later.wall)
    (hrange : InRange start ttl later) (httl : Row.million ∣ ttl)
    (hwhole : (Row.million : Int) ∣ start.wall) :
    Lasts start ttl later ↔ later.wall < start.wall + ttl := by
  simp only [Lasts, InRange, millis, Row.million] at *
  omega

/-! ### Reading -/

theorem exists_of_write (hwrite : write start key value (some ttl) rows = (.ok (), rows'))
    (hspan : Row.million ≤ ttl) :
    ∃ b, rows'.table.get? key = some b ∧
      Row.decode? b = some { value, expiry := some (deadline start ttl) } := by
  refine ⟨_, get?_of_write hwrite, Row.decode?_encode ?_⟩
  rintro _ ⟨⟩
  have hlimit : Row.millisLimit = 18446744073709551616 := rfl
  have hwhole : 0 < ttl / Row.million := Nat.div_pos hspan (by decide)
  omega

theorem wall_of_write (hwrite : write start key value (some ttl) rows = (.ok (), rows')) :
    0 ≤ start.wall := by
  obtain ⟨row, hrow, -⟩ := write_eq_ok hwrite
  exact (Row.millisOf_eq_ok_iff.1 (withTtl_eq_ok hrow).1).1

/-- A value that is read is live, whether or not the milliseconds are used up. -/
theorem exists_of_read (h : (read clock key rows).1 = .ok (some found)) :
    ∃ b, rows.table.get? key = some b ∧ isOver (millis clock) b = false := by
  unfold read at h
  cases hbytes : rows.table.get? key with
  | none => simp [hbytes] at h
  | some b =>
    refine ⟨b, rfl, ?_⟩
    unfold isOver
    cases hrow : Row.decode? b with
    | none => rfl
    | some row =>
      simp only [hbytes, hrow] at h ⊢
      cases hexpiry : row.expiry with
      | none => simp only [Row.isOver, hexpiry]
      | some expiry =>
        cases hnow : Row.millisOf clock with
        | error fault => simp [hexpiry, hnow] at h
        | ok now =>
          rw [millis_of_millisOf hnow]
          cases hover : row.isOver now with
          | false => rfl
          | true => simp [hexpiry, hnow, hover] at h

/-- A read of the key gives the value exactly until the deadline, whatever else was called. -/
theorem read_after_iff (hwrite : write start key value (some ttl) rows = (.ok (), rows'))
    (hspan : Row.million ≤ ttl) (hlater : 0 ≤ later.wall)
    (hrun : ∀ t ∈ run, t.clock.wall ≤ later.wall ∧ ¬ t.call.Edits key) :
    (read later key (after run rows')).1 = .ok (some found) ↔
      found = value ∧ Lasts start ttl later := by
  have hsame : live later key (after run rows') = live later key rows' := live_after hrun rows'
  by_cases hlasts : Lasts start ttl later
  · have hreadable : Readable later :=
      Nat.lt_of_lt_of_le hlasts.2 (Nat.le_trans (Nat.min_le_right _ _) (Nat.sub_le _ _))
    have hread : (read later key (after run rows')).1 = .ok (some value) := by
      rw [read_fst hreadable, hsame, ← read_fst hreadable, read_of_lasts hwrite hlasts]
    rw [hread, and_iff_left hlasts]
    simp [eq_comm]
  · obtain ⟨b, hbytes, hrow⟩ := exists_of_write hwrite hspan
    have hover : deadline start ttl ≤ millis later := Nat.not_lt.1 fun hlt => hlasts ⟨hlater, hlt⟩
    have hnone : live later key rows' = none := by
      simp [live, Table.live, hbytes, isOver, hrow, Row.isOver, hover]
    refine iff_of_false (fun h => ?_) (fun h => hlasts h.2)
    obtain ⟨c, hheld, hlive⟩ := exists_of_read h
    rw [hnone, live, Table.live, hheld, Option.filter_some, hlive] at hsame
    cases hsame

/-- **A row expires at its deadline.** After a write for a time to live of a millisecond or more, and
after any calls that do not edit the key, none of them later than the read: what a read of the key
gives is the value that was written, and then the time to live is not over; it does give the value
until two milliseconds before that; and if the time of the write and the time to live are whole
milliseconds, it gives the value exactly as long as the time to live is not over. -/
theorem read_until_deadline (hwrite : Backend.write start key value (some ttl) rows = (.ok (), rows'))
    (hspan : Row.million ≤ ttl) (hlater : start.wall ≤ later.wall)
    (hrun : ∀ t ∈ run, t.clock.wall ≤ later.wall ∧ ¬ t.call.Edits key) :
    (∀ found, (Backend.read later key (after run rows')).1 = .ok (some found) →
      found = value ∧ later.wall < start.wall + ttl) ∧
    (InRange start ttl later → later.wall + 2 * Row.million < start.wall + ttl →
      (Backend.read later key (after run rows')).1 = .ok (some value)) ∧
    (InRange start ttl later → Row.million ∣ ttl → (Row.million : Int) ∣ start.wall →
      ((Backend.read later key (after run rows')).1 = .ok (some value) ↔
        later.wall < start.wall + ttl)) := by
  have hstart : 0 ≤ start.wall := wall_of_write hwrite
  have hpast : 0 ≤ later.wall := Int.le_trans hstart hlater
  have hread : ∀ found, (Backend.read later key (after run rows')).1 = .ok (some found) ↔
      found = value ∧ Lasts start ttl later :=
    fun found => read_after_iff hwrite hspan hpast hrun
  refine ⟨fun found h => ?_, fun hrange h => ?_, fun hrange httl hwhole => ?_⟩
  · obtain ⟨rfl, hlasts⟩ := (hread found).1 h
    exact ⟨rfl, Int.lt_of_lt_of_le ((lasts_iff hpast).1 hlasts) (deadline_le hstart)⟩
  · exact (hread value).2 ⟨rfl, lasts_of_lt hstart hpast hrange h⟩
  · rw [hread value, and_iff_right rfl]
    exact lasts_iff_of_whole hstart hpast hrange httl hwhole

/-- A read of the key, a sweep, and a write and a removal under other keys. -/
def callsBetween : List (Timed Call) :=
  [⟨⟨3000000, 0⟩, .read ['a']⟩, ⟨⟨4000000, 0⟩, .sweep⟩, ⟨⟨5000000, 0⟩, .write ['b'] [2] none⟩,
    ⟨⟨5999990, 0⟩, .remove ['c']⟩]

/-- Most of a millisecond is cut from the time of this write and from its time to live: the deadline
is at six milliseconds, and the time to live is over two nanoseconds before the eighth. -/
theorem read_until_deadline_sample :
    let start : Clock := ⟨1999999, 0⟩
    let later : Clock := ⟨5999990, 0⟩
    ∃ rows', Backend.write start ['a'] [1] (some 5999999) empty = (.ok (), rows') ∧
      (∀ t ∈ callsBetween, t.clock.wall ≤ later.wall ∧ ¬ t.call.Edits ['a']) ∧
      (Backend.read later ['a'] (after callsBetween rows')).1 = .ok (some [1]) ∧
      (Backend.read ⟨6000000, 0⟩ ['a'] (after callsBetween rows')).1 = .ok none := by
  intro start later
  have hwrite : Backend.write ⟨1999999, 0⟩ ['a'] [1] (some 5999999) empty =
      (.ok (), (write ⟨1999999, 0⟩ ['a'] [1] (some 5999999) empty).2) := rfl
  have hlater : start.wall ≤ later.wall := by decide
  have hrun : ∀ t ∈ callsBetween, t.clock.wall ≤ later.wall ∧ ¬ t.call.Edits ['a'] := by
    simp [callsBetween, Call.Edits, later]
  refine ⟨_, hwrite, hrun, ?_, by decide +kernel⟩
  have hlive := (read_until_deadline hwrite (by decide) hlater hrun).2.1
  exact hlive (.inl (by decide)) (by decide)

end DeadDrop.Rows
