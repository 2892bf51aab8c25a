import DeadDrop.Proofs.Store.Expiry
import DeadDrop.Proofs.Store.Transaction

/-!
# What a sweep removes

A sweep removes the rows whose expiry has come and no others, and it tells how many. Which rows these
are can be read off their bytes: there are eight or more, and the number in the first eight is not
zero and not beyond the millisecond of the clock (`Expired`). Bytes that are too short for a row are
kept as they are.

A read goes by the same boundary, so a value that can be read at the time of the sweep, or later, can
be read after it as well.

The sweep asks the clock only where some row has an expiry, and the clock can refuse. From 1970 on
this happens past the last millisecond of 64 bits alone, and then the sweep fails and leaves all rows.
-/

namespace DeadDrop.Rows

open DeadDrop.Action Backend

variable {clock later : Clock} {key : Text} {value b : Bytes} {rows rows' : Rows} {now : Nat}

/-! ### Bytes of a row -/

/-- The bytes of a row that has an expiry. -/
def Expires (b : Bytes) : Prop := 8 ≤ b.length ∧ 0 < Bytes.toNatBE (b.take 8)

/-- The bytes of a row whose expiry has come. -/
def Expired (now : Nat) (b : Bytes) : Prop := Expires b ∧ Bytes.toNatBE (b.take 8) ≤ now

instance (b : Bytes) : Decidable (Expires b) := inferInstanceAs (Decidable (_ ∧ _))

instance (now : Nat) (b : Bytes) : Decidable (Expired now b) := inferInstanceAs (Decidable (_ ∧ _))

theorem mayExpire_iff : mayExpire b = true ↔ Expires b := by
  unfold mayExpire Expires
  rcases Nat.lt_or_ge b.length 8 with hshort | hlong
  · simp [Row.decode?_eq_none_iff.2 hshort, Nat.not_le.2 hshort]
  · rw [Row.decode?_of_long hlong, Row.headerLength]
    by_cases hzero : Bytes.toNatBE (b.take 8) = 0
    · simp [hzero]
    · simp [hzero, hlong, Nat.pos_iff_ne_zero]

theorem isOver_iff : isOver now b = true ↔ Expired now b := by
  unfold isOver Expired Expires
  rcases Nat.lt_or_ge b.length 8 with hshort | hlong
  · simp [Row.decode?_eq_none_iff.2 hshort, Nat.not_le.2 hshort]
  · rw [Row.decode?_of_long hlong, Row.headerLength]
    by_cases hzero : Bytes.toNatBE (b.take 8) = 0
    · simp [hzero, Row.isOver]
    · simp [hzero, hlong, Row.isOver, Nat.pos_iff_ne_zero]

/-! ### One sweep -/

/-- The rows less those whose expiry has come. -/
def unexpired (clock : Clock) (rows : Rows) : Rows :=
  ⟨rows.table.filter fun _ b => !isOver (millis clock) b⟩

theorem get?_unexpired :
    (unexpired clock rows).table.get? key = some b ↔
      rows.table.get? key = some b ∧ ¬ Expired (millis clock) b := by
  rw [unexpired, Table.get?_filter, Option.filter_eq_some_iff, ← isOver_iff]
  simp

/-- The time can be told, or nobody has to ask for it. -/
def Timely (clock : Clock) (rows : Rows) : Prop :=
  millis clock < Row.millisLimit ∨ ∀ key b, rows.table.get? key = some b → ¬ Expires b

theorem unexpired_of_none (h : ∀ key b, rows.table.get? key = some b → ¬ Expired (millis clock) b) :
    unexpired clock rows = rows := by
  refine congrArg Rows.mk (Table.ext_of_get? fun key => Option.ext fun b => ?_ :
    (unexpired clock rows).table = rows.table)
  rw [get?_unexpired]
  exact and_iff_left_of_imp (h key b)

theorem any_mayExpire_iff :
    (rows.table.entries.any fun entry => mayExpire entry.2) = true ↔
      ∃ key b, rows.table.get? key = some b ∧ Expires b := by
  simp [mayExpire_iff, Table.get?_eq_some_iff]

theorem sweep_of_timely (hepoch : 0 ≤ clock.wall) (h : Timely clock rows) :
    Backend.sweep clock rows =
      (.ok (rows.table.size - (unexpired clock rows).table.size), unexpired clock rows) := by
  by_cases hlimit : millis clock < Row.millisLimit
  · have hnow : Row.millisOf clock = .ok (millis clock) := by
      refine Row.millisOf_eq_ok_iff.2 ⟨hepoch, ?_, hlimit⟩
      simp only [millis, Row.million]
      omega
    exact sweep_eq hnow rows
  · have hnone := h.resolve_left hlimit
    have hquiet : ¬ (rows.table.entries.any fun entry => mayExpire entry.2) = true := by
      rw [any_mayExpire_iff]
      rintro ⟨key, b, hb, hexpires⟩
      exact hnone key b hb hexpires
    rw [unexpired_of_none fun key b hb hexpired => hnone key b hb hexpired.1, Nat.sub_self]
    exact if_neg hquiet

theorem sweep_of_not_timely (hepoch : 0 ≤ clock.wall) (h : ¬ Timely clock rows) :
    Backend.sweep clock rows = (.error .clockOutOfRange, rows) := by
  unfold Timely at h
  push Not at h
  obtain ⟨hlimit, key, b, hb, hexpires⟩ := h
  have hany := any_mayExpire_iff.2 ⟨key, b, hb, hexpires⟩
  have hnow : Row.millisOf clock = .error .clockOutOfRange := by
    rw [Row.millisOf, if_neg (Int.not_lt.2 hepoch)]
    exact if_neg (Nat.not_lt.2 hlimit)
  change sweep clock rows = _
  rw [sweep, if_pos hany, hnow]

theorem size_sub_size_unexpired :
    rows.table.size - (unexpired clock rows).table.size =
      rows.table.entries.countP fun entry => Expired (millis clock) entry.2 := by
  rw [unexpired, Table.size_sub_size_filter, List.countP_eq_length_filter]
  refine congrArg List.length (List.filter_congr fun entry _ => ?_)
  change (!!isOver (millis clock) entry.2) = decide (Expired (millis clock) entry.2)
  rw [Bool.not_not, Bool.eq_iff_iff, isOver_iff, decide_eq_true_eq]

/-- A read of a key goes by the bytes under it. -/
theorem read_congr (h : rows'.table.get? key = rows.table.get? key) :
    (read clock key rows').1 = (read clock key rows).1 := by
  unfold read
  rw [h]
  cases rows.table.get? key with
  | none => rfl
  | some b =>
    simp only
    split
    · rfl
    · split
      · rfl
      · split
        · rfl
        · split <;> rfl

theorem read_unexpired (hle : clock.wall ≤ later.wall)
    (h : (read later key rows).1 = .ok (some value)) :
    (read later key (unexpired clock rows)).1 = .ok (some value) := by
  obtain ⟨b, hbytes, hlive⟩ := exists_of_read h
  have hmillis : millis clock ≤ millis later := Nat.div_le_div_right (Int.toNat_le_toNat hle)
  have hkept : (unexpired clock rows).table.get? key = some b := by
    refine get?_unexpired.2 ⟨hbytes, fun hexpired => ?_⟩
    rw [isOver_of_le hmillis (isOver_iff.2 hexpired)] at hlive
    cases hlive
  rw [read_congr (hkept.trans hbytes.symm), h]

/-! ### Exactly the expired rows -/

/-- A sweep has removed the rows whose expiry had come, and no others. -/
structure Swept (clock : Clock) (rows : Rows) (result : Outcome StorageFault Nat × Rows) :
    Prop where
  counted : result.1 =
    .ok (rows.table.entries.countP fun entry => Expired (millis clock) entry.2)
  kept : ∀ key b, result.2.table.get? key = some b ↔
    rows.table.get? key = some b ∧ ¬ Expired (millis clock) b
  readable : ∀ later, clock.wall ≤ later.wall → ∀ key value,
    (Backend.read later key rows).1 = .ok (some value) →
      (Backend.read later key result.2).1 = .ok (some value)
  again : Backend.sweep clock result.2 = (.ok 0, result.2)

theorem swept_of_timely (hepoch : 0 ≤ clock.wall) (h : Timely clock rows) :
    Swept clock rows (Backend.sweep clock rows) := by
  have hleft : Timely clock (unexpired clock rows) :=
    h.imp_right fun hnone key b hb => hnone key b (get?_unexpired.1 hb).1
  have hsame : unexpired clock (unexpired clock rows) = unexpired clock rows :=
    unexpired_of_none fun key b hb => (get?_unexpired.1 hb).2
  rw [sweep_of_timely hepoch h]
  constructor
  · exact congrArg Outcome.ok size_sub_size_unexpired
  · exact fun key b => get?_unexpired
  · exact fun later hle key value => read_unexpired hle
  · rw [sweep_of_timely hepoch hleft, hsame, Nat.sub_self]

/-- **A sweep removes exactly the expired rows.** What it does at once is what it does in its steps,
which find the keys first and remove them afterwards. From 1970 on it removes the rows whose expiry
has come and no others, unless the milliseconds are used up and some row has an expiry; then the clock
refuses, and all rows are left. -/
theorem sweep_removes_expired (hepoch : 0 ≤ clock.wall) (rows : Rows) :
    Backend.sweep clock rows = sweepInSteps (fun _ => clock) rows ∧
      (Timely clock rows → Swept clock rows (Backend.sweep clock rows)) ∧
      (¬ Timely clock rows → Backend.sweep clock rows = (.error .clockOutOfRange, rows)) :=
  ⟨congrFun (sweep_eq_steps clock) rows, swept_of_timely hepoch, sweep_of_not_timely hepoch⟩

/-- The sample rows, and with them a row that has just expired and one that is about to. -/
def sweptRows : Rows :=
  (sampleRows.put ['d'] (Row.encode ⟨[3], some 5000⟩)).put ['e'] (Row.encode ⟨[4], some 5001⟩)

/-- After five seconds two rows of five are removed; the one that is about to expire can be read. -/
theorem sweep_removes_expired_sample :
    let clock : Clock := ⟨5000000000, 0⟩
    0 ≤ clock.wall ∧ Timely clock sweptRows ∧ Swept clock sweptRows (Backend.sweep clock sweptRows) ∧
      (Backend.sweep clock sweptRows).1 = .ok 2 ∧
      (Backend.read clock ['e'] (Backend.sweep clock sweptRows).2).1 = .ok (some [4]) := by
  intro clock
  have hepoch : 0 ≤ clock.wall := by decide
  have htimely : Timely clock sweptRows := .inl (by decide)
  have hswept := (sweep_removes_expired hepoch sweptRows).2.1 htimely
  refine ⟨hepoch, htimely, hswept, ?_, ?_⟩
  · exact hswept.counted.trans (by decide +kernel)
  · exact hswept.readable clock (Int.le_refl _) ['e'] [4] (by decide +kernel)

/-- Past the last millisecond a sweep of the sample rows fails. -/
theorem not_swept_past_last_millisecond :
    ¬ ∀ (clock : Clock) (rows : Rows), 0 ≤ clock.wall →
      Swept clock rows (Backend.sweep clock rows) := by
  intro hswept
  have hrefused : (Backend.sweep ⟨(Row.millisLimit * Row.million : Nat), 0⟩ sampleRows).1 =
      .error .clockOutOfRange := by decide +kernel
  have hcounted := (hswept ⟨(Row.millisLimit * Row.million : Nat), 0⟩ sampleRows (by decide)).counted
  rw [hrefused] at hcounted
  cases hcounted

end DeadDrop.Rows
