import DeadDrop.Proofs.Store.Live

/-!
# Reading what was written

A backend is faithful if a written value is read back at the moment of the write, and no other value
is ever read in its place. Both backends are, with times to live of a millisecond or more; rows
need the calendar for it, which ends long before the milliseconds do.

How long a value lasts is told by the clock that its backend goes by: a value in memory lasts to the
nanosecond, a row to the whole millisecond and no longer than the milliseconds do.
-/

namespace DeadDrop

/-- Within the calendar the wall clock is far from the last millisecond. -/
theorem Clock.millis_lt_of_moment? {clock : Clock} (h : clock.moment?.isSome = true) :
    0 ≤ clock.wall ∧ Rows.millis clock + 1 < Row.millisLimit := by
  unfold moment? at h
  simp only at h
  by_cases hshown : 0 ≤ clock.wall ∧ (Moment.ofUnixNanos clock.wall).IsRepresentable
  · obtain ⟨hpast, hrepresentable⟩ := hshown
    have hlast := hrepresentable.2.1
    have hlimit : Row.millisLimit = 18446744073709551616 := rfl
    simp only [Moment.ofUnixNanos, Moment.billion] at hlast
    simp only [Rows.millis, Row.million]
    omega
  · rw [if_neg hshown] at h
    exact absurd h (by simp)

namespace Backend

class Faithful (σ : Type) [Backend σ] : Prop where
  read_write : ∀ {clock : Clock} {key : Text} {value : Bytes} {ttl : Nat} {s s' : σ},
    clock.moment?.isSome = true → Row.million ≤ ttl →
    write clock key value (some ttl) s = (.ok (), s') →
    read clock key s' = (.ok (some value), s')
  eq_of_read : ∀ {clock later : Clock} {key : Text} {value found : Bytes} {ttl : Nat}
    {s s' s'' : σ},
    write clock key value (some ttl) s = (.ok (), s') →
    read later key s' = (.ok (some found), s'') → found = value

end Backend

/-! ### Memory -/

namespace Memory

theorem write_eq_ok {clock : Clock} {key : Text} {value : Bytes} {ttl : Nat} {m m' : Memory}
    (h : write clock key value (some ttl) m = (.ok (), m')) :
    m' = ⟨m.entries.insert key ⟨value, some (clock.monotonic + ttl)⟩⟩ := by
  unfold write at h
  simp only at h
  split at h
  · exact (congrArg Prod.snd h).symm
  · exact absurd (congrArg Prod.fst h) (by simp)

theorem get?_of_write {clock : Clock} {key : Text} {value : Bytes} {ttl : Nat} {m m' : Memory}
    (h : write clock key value (some ttl) m = (.ok (), m')) :
    m'.entries.get? key = some ⟨value, some (clock.monotonic + ttl)⟩ := by
  rw [write_eq_ok h, Table.get?_insert, if_pos rfl]

/-- What is written at one time for a time to live can be read at another. -/
def Lasts (clock : Clock) (ttl : Nat) (later : Clock) : Prop :=
  later.monotonic < clock.monotonic + ttl

theorem read_of_lasts {clock later : Clock} {key : Text} {value : Bytes} {ttl : Nat}
    {m m' : Memory} (h : write clock key value (some ttl) m = (.ok (), m'))
    (hlasts : Lasts clock ttl later) : read later key m' = (.ok (some value), m') := by
  have hlive : MemoryEntry.isOver later.monotonic
      ⟨value, some (clock.monotonic + ttl)⟩ = false := decide_eq_false (Nat.not_le.2 hlasts)
  unfold read
  simp only [get?_of_write h, hlive, Bool.false_eq_true, if_false]

instance : Backend.Faithful Memory where
  read_write {clock key value ttl m m'} _ hspan hwrite := by
    simp only [Row.million] at hspan
    have hlasts : Lasts clock ttl clock := Nat.lt_add_of_pos_right (by omega)
    exact read_of_lasts hwrite hlasts
  eq_of_read {clock later key value found ttl m m' m''} hwrite hread := by
    change read later key m' = _ at hread
    unfold read at hread
    simp only [get?_of_write hwrite] at hread
    split at hread
    · exact absurd (congrArg Prod.fst hread) (by simp)
    · simpa using (congrArg Prod.fst hread).symm

end Memory

/-! ### Rows -/

namespace Rows

theorem write_eq_ok {clock : Clock} {key : Text} {value : Bytes} {ttl : Nat} {rows rows' : Rows}
    (h : write clock key value (some ttl) rows = (.ok (), rows')) :
    ∃ row, Row.withTtl clock value ttl = .ok row ∧ rows' = rows.put key row.encode := by
  unfold write at h
  simp only at h
  split at h
  · exact absurd (congrArg Prod.fst h) (by simp)
  · rename_i row hrow
    exact ⟨row, hrow, (congrArg Prod.snd h).symm⟩

theorem withTtl_eq_ok {clock : Clock} {value : Bytes} {ttl : Nat} {row : Row}
    (h : Row.withTtl clock value ttl = .ok row) :
    Row.millisOf clock = .ok (millis clock) ∧
      row = { value
              expiry := some (min (millis clock + ttl / Row.million) (Row.millisLimit - 1)) } := by
  obtain ⟨-, now, hnow, rfl⟩ := Row.withTtl_eq_ok_iff.1 h
  rw [millis_of_millisOf hnow]
  exact ⟨hnow, rfl⟩

/-- Whatever its expiry, a row reads back with its value. -/
theorem value_of_decode?_encode (row : Row) :
    ∃ row', Row.decode? row.encode = some row' ∧ row'.value = row.value :=
  ⟨_, Row.decode?_append _ _ (Bytes.length_ofNatBE _ _), rfl⟩

theorem value_of_read {clock : Clock} {key : Text} {found : Bytes} {rows rows' : Rows} {row : Row}
    {b : Bytes} (hbytes : rows.table.get? key = some b) (hrow : Row.decode? b = some row)
    (h : read clock key rows = (.ok (some found), rows')) : found = row.value := by
  unfold read at h
  simp only [hbytes, hrow] at h
  split at h
  · simpa using (congrArg Prod.fst h).symm
  · split at h
    · exact absurd (congrArg Prod.fst h) (by simp)
    · split at h
      · exact absurd (congrArg Prod.fst h) (by simp)
      · simpa using (congrArg Prod.fst h).symm

/-- What is written at one time for a time to live can be read at another. -/
def Lasts (clock : Clock) (ttl : Nat) (later : Clock) : Prop :=
  0 ≤ later.wall ∧
    millis later < min (millis clock + ttl / Row.million) (Row.millisLimit - 1)

theorem get?_of_write {clock : Clock} {key : Text} {value : Bytes} {ttl : Nat} {rows rows' : Rows}
    (h : write clock key value (some ttl) rows = (.ok (), rows')) :
    rows'.table.get? key = some (Row.encode
      { value
        expiry := some (min (millis clock + ttl / Row.million) (Row.millisLimit - 1)) }) := by
  obtain ⟨row, hrow, rfl⟩ := write_eq_ok h
  obtain ⟨-, rfl⟩ := withTtl_eq_ok hrow
  exact (Table.get?_insert ..).trans (if_pos rfl)

theorem read_of_lasts {clock later : Clock} {key : Text} {value : Bytes} {ttl : Nat}
    {rows rows' : Rows} (h : write clock key value (some ttl) rows = (.ok (), rows'))
    (hlasts : Lasts clock ttl later) : read later key rows' = (.ok (some value), rows') := by
  obtain ⟨hpast, hmillis⟩ := hlasts
  let row : Row :=
    { value
      expiry := some (min (millis clock + ttl / Row.million) (Row.millisLimit - 1)) }
  have hbytes : rows'.table.get? key = some row.encode := get?_of_write h
  have hdecode : Row.decode? row.encode = some row := by
    refine Row.decode?_encode fun expiry hexpiry => ?_
    have hmin := Option.some.inj hexpiry
    omega
  have hlive : row.isOver (millis later) = false := decide_eq_false (Nat.not_le.2 hmillis)
  have hnow : Row.millisOf later = .ok (millis later) := by
    rw [Row.millisOf, if_neg (Int.not_lt.2 hpast)]
    exact if_pos (by unfold millis at hmillis; omega)
  have hexpiry : row.expiry.isNone = false := rfl
  unfold read
  simp only [hbytes, hdecode, hexpiry, hnow, hlive, Bool.false_eq_true, if_false, row]

instance : Backend.Faithful Rows where
  read_write {clock key value ttl rows rows'} hmoment hspan hwrite := by
    obtain ⟨hpast, hcalendar⟩ := Clock.millis_lt_of_moment? hmoment
    have hwhole : 0 < ttl / Row.million := Nat.div_pos hspan (by decide)
    exact read_of_lasts hwrite ⟨hpast, by omega⟩
  eq_of_read {clock later key value found ttl rows rows' rows''} hwrite hread := by
    obtain ⟨row, hdecode, hvalue⟩ := value_of_decode?_encode
      { value
        expiry := some (min (millis clock + ttl / Row.million) (Row.millisLimit - 1)) }
    rw [value_of_read (get?_of_write hwrite) hdecode hread, hvalue]

end Rows

end DeadDrop
