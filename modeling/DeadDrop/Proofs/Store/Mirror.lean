import DeadDrop.Proofs.Store.Calls
import DeadDrop.Proofs.Store.Live
import DeadDrop.Proofs.Table

/-!
# The two backends mirror each other

A table of rows mirrors a memory if it has the same keys, and under each the same value with the
same time of expiry, once in nanoseconds of the monotonic clock and once in milliseconds of the wall
clock. Each operation keeps the mirror and answers the same on both sides, as long as the two clocks
show the same time; so the backends are interchangeable.

The two readings of time are tied by one number, `base`: what the monotonic clock shows, or would
show, when the wall clock is at 1970. It may be negative.
-/

namespace DeadDrop

/-- The monotonic clock of `c` shows the millisecond which the wall clock of `d` shows. -/
structure Clock.Aligned (base : Int) (c d : Clock) (millis : Nat) : Prop where
  wall : Row.millisOf d = .ok millis
  monotonic : (c.monotonic : Int) = base + millis * Row.million

/-- The expiry of a memory entry is the millisecond of a row's expiry. -/
def SameTime (base : Int) (expiry millis : Nat) : Prop :=
  (expiry : Int) = base + millis * Row.million

/-- Bytes that are a row with the value and the expiry of a memory entry. -/
def Row.Mirrors (base : Int) (entry : MemoryEntry) (b : Bytes) : Prop :=
  ∃ row, Row.decode? b = some row ∧ row.value = entry.value ∧
    Option.Rel (SameTime base) entry.expiry row.expiry

def Rows.Mirrors (base : Int) (m : Memory) (rows : Rows) : Prop :=
  m.entries.Matches (Row.Mirrors base) rows.table

theorem Rows.mirrors_empty (base : Int) : Rows.Mirrors base Memory.empty Rows.empty :=
  Table.matches_empty

/-! ### Times -/

theorem Row.isOver_of_mirrors {base : Int} {c d : Clock} {millis : Nat}
    (hclock : Clock.Aligned base c d millis) {entry : MemoryEntry} {row : Row}
    (h : Option.Rel (SameTime base) entry.expiry row.expiry) :
    entry.isOver c.monotonic = row.isOver millis := by
  obtain ⟨value, expiry⟩ := entry
  obtain ⟨value', expiry'⟩ := row
  cases h with
  | none => rfl
  | @some e ms hsame =>
    have hmonotonic := hclock.monotonic
    simp only [MemoryEntry.isOver, Row.isOver, SameTime, Row.million] at *
    refine decide_eq_decide.2 ?_
    omega

theorem Rows.isOver_of_mirrors {base : Int} {c d : Clock} {millis : Nat}
    (hclock : Clock.Aligned base c d millis) {entry : MemoryEntry} {b : Bytes}
    (h : Row.Mirrors base entry b) : entry.isOver c.monotonic = Rows.isOver millis b := by
  obtain ⟨row, hrow, _, hexpiry⟩ := h
  rw [Rows.isOver, hrow]
  exact Row.isOver_of_mirrors hclock hexpiry

/-! ### Operations -/

namespace Rows

variable {base : Int} {c d : Clock} {millis : Nat}

theorem agree_read (hclock : Clock.Aligned base c d millis) (key : Text) :
    Action.Agree (Mirrors base) (Memory.read c key) (Rows.read d key) := by
  intro m rows hm
  unfold Memory.read Rows.read
  rcases hm.get?_cases key with ⟨hentry, hbytes⟩ | ⟨entry, b, hentry, hbytes, hsame⟩
  · rw [hentry, hbytes]
    exact ⟨rfl, hm⟩
  · obtain ⟨row, hrow, hvalue, hexpiry⟩ := hsame
    have hover := Row.isOver_of_mirrors hclock hexpiry
    simp only [hentry, hbytes, hrow, hclock.wall, hover]
    by_cases hkept : row.expiry.isNone
    · have hlive : row.isOver millis = false := by
        rw [Row.isOver, Option.isNone_iff_eq_none.1 hkept]
      simp only [hlive, hkept, if_true, Bool.false_eq_true, if_false]
      exact ⟨by rw [hvalue], hm⟩
    · simp only [hkept, Bool.false_eq_true, if_false]
      split
      · exact ⟨rfl, hm.erase key⟩
      · exact ⟨by rw [hvalue], hm⟩

theorem agree_remove (base : Int) (key : Text) :
    Action.Agree (Mirrors base) (Memory.remove key) (Rows.remove key) := by
  intro m rows hm
  exact ⟨congrArg Outcome.ok (hm.contains_eq key), hm.erase key⟩

theorem mayExpire_of_isOver {now : Nat} {b : Bytes} (h : isOver now b = true) :
    mayExpire b = true := by
  unfold isOver at h
  unfold mayExpire
  cases hrow : Row.decode? b with
  | none => simp [hrow] at h
  | some row =>
    simp only [hrow] at h ⊢
    cases hexpiry : row.expiry with
    | none => simp [Row.isOver, hexpiry] at h
    | some expiry => rfl

/-- A sweep removes the rows whose time is over, whether or not it asks for the time. -/
theorem sweep_eq (hwall : Row.millisOf d = .ok millis) (rows : Rows) :
    Rows.sweep d rows =
      (.ok (rows.table.size - (rows.table.filter fun _ b => !isOver millis b).size),
        ⟨rows.table.filter fun _ b => !isOver millis b⟩) := by
  unfold Rows.sweep
  by_cases hany : rows.table.entries.any fun entry => mayExpire entry.2
  · simp only [hany, if_true, hwall]
  · have hall : rows.table.filter (fun _ b => !isOver millis b) = rows.table := by
      refine Table.ext (List.filter_eq_self.2 fun entry he => ?_)
      have hlive : isOver millis entry.2 ≠ true := fun hover =>
        hany (List.any_eq_true.2 ⟨entry, he, mayExpire_of_isOver hover⟩)
      simpa using hlive
    rw [if_neg hany, hall, Nat.sub_self]

theorem agree_sweep (hclock : Clock.Aligned base c d millis) :
    Action.Agree (Mirrors base) (Memory.sweep c) (Rows.sweep d) := by
  intro m rows hm
  have hkept : (m.entries.filter fun _ entry => !entry.isOver c.monotonic).Matches
      (Row.Mirrors base) (rows.table.filter fun _ b => !isOver millis b) :=
    hm.filter fun _ entry b hsame => by rw [isOver_of_mirrors hclock hsame]
  rw [sweep_eq hclock.wall]
  exact ⟨by rw [← hm.size_eq, ← hkept.size_eq]; rfl, hkept⟩

theorem write_of_withTtl {value : Bytes} {ttl : Nat} {row : Row}
    (h : Row.withTtl d value ttl = .ok row) (key : Text) (rows : Rows) :
    Rows.write d key value (some ttl) rows = (.ok (), rows.put key row.encode) := by
  simp only [Rows.write, h]

/-- A time to live of whole milliseconds which keeps within both clocks. The expiry must not fall on
the very moment of 1970, whose millisecond is the header's word for no expiry. -/
theorem agree_write_withTtl (hclock : Clock.Aligned base c d millis) {span : Nat}
    (hpositive : 0 < millis + span)
    (hmonotonic : c.monotonic + span * Row.million < Memory.clockLimit)
    (hwall : millis + span < Row.millisLimit) (key : Text) (value : Bytes) :
    Action.Agree (Mirrors base) (Memory.write c key value (some (span * Row.million)))
      (Rows.write d key value (some (span * Row.million))) := by
  intro m rows hm
  have hdiv : span * Row.million / Row.million = span := Nat.mul_div_cancel _ (by decide)
  have hmin : min (millis + span) (Row.millisLimit - 1) = millis + span := by omega
  have hrow : Row.withTtl d value (span * Row.million) =
      .ok { value, expiry := some (millis + span) } := by
    rw [Row.withTtl, hdiv, if_pos (by omega), hclock.wall]
    simp only [hmin]
  have hsame : SameTime base (c.monotonic + span * Row.million) (millis + span) := by
    have h := hclock.monotonic
    simp only [SameTime, Row.million] at h ⊢
    omega
  have hheader : ∀ expiry, some (millis + span) = some expiry →
      0 < expiry ∧ expiry < Row.millisLimit := by
    rintro _ ⟨⟩
    exact ⟨hpositive, hwall⟩
  have hmirrors : Row.Mirrors base ⟨value, some (c.monotonic + span * Row.million)⟩
      (Row.encode { value, expiry := some (millis + span) }) :=
    ⟨_, Row.decode?_encode hheader, rfl, Option.Rel.some hsame⟩
  rw [Memory.write_of_lt hmonotonic, write_of_withTtl hrow]
  exact ⟨rfl, hm.insert key hmirrors⟩

end Rows

/-! ### Runs -/

/-- Neither clock leaves its range within a span. -/
def Clock.Reaches (clock : Clock) (span : Nat) : Prop :=
  clock.monotonic + span < Memory.clockLimit ∧
    clock.wall + span < (Row.millisLimit * Row.million : Nat)

instance (clock : Clock) (span : Nat) : Decidable (clock.Reaches span) :=
  inferInstanceAs (Decidable (_ ∧ _))

end DeadDrop
