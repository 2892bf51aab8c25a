import DeadDrop.Proofs.Action
import DeadDrop.Proofs.Store.Row
import DeadDrop.Proofs.Transcript
import DeadDrop.Store.Memory
import DeadDrop.Store.Rows

/-!
# What is live under a key

A backend is seen through its live entries. What an operation under a key answers, and what is live
there afterwards, is decided by what was live there before; reads, sweeps and operations under other
keys leave it as it is. So it makes no difference to the holder of a key when an entry whose time is
over is removed, or by whom.

The row backend keeps to this only up to the last millisecond that a row can have. Past it, a row
that is still held fails a read which would find nothing had the row been swept.
-/

namespace DeadDrop

/-! ### Tables -/

namespace Table

variable {κ α : Type} [LT κ] [DecidableEq κ]

/-- The entry under a key, unless its time is over. -/
def live (ended : α → Bool) (key : κ) (t : Table κ α) : Option α :=
  (t.get? key).filter fun entry => !ended entry

variable [KeyOrder κ] {ended ended' : α → Bool} {key : κ}

theorem live_erase_of_ne {other : κ} (h : key ≠ other) (t : Table κ α) :
    (t.erase other).live ended key = t.live ended key := by
  rw [live, get?_erase, if_neg h, live]

theorem live_erase_self (t : Table κ α) : (t.erase key).live ended key = none := by
  rw [live, get?_erase, if_pos rfl]
  rfl

/-- An entry whose time is over may be removed. -/
theorem live_erase_of_over {other : κ} {entry : α} {t : Table κ α}
    (hentry : t.get? other = some entry) (hover : ended entry = true) :
    (t.erase other).live ended key = t.live ended key := by
  by_cases h : key = other
  · subst h
    rw [live_erase_self, live, hentry, Option.filter_some, hover]
    rfl
  · exact live_erase_of_ne h t

theorem live_filter (t : Table κ α) :
    (t.filter fun _ entry => !ended entry).live ended key = t.live ended key := by
  rw [live, get?_filter, Option.filter_filter, live]
  simp only [Bool.and_self]

omit [KeyOrder κ] in
/-- What is live later is what is live now, unless its time will be over. -/
theorem live_of_imp (h : ∀ entry, ended entry = true → ended' entry = true) (t : Table κ α) :
    t.live ended' key = (t.live ended key).filter fun entry => !ended' entry := by
  rw [live, live, Option.filter_filter]
  congr 1
  funext entry
  cases hentry : ended entry with
  | false => simp
  | true => simp [h entry hentry]

variable [DecidableLT κ]

theorem live_insert_of_ne {other : κ} (h : key ≠ other) (entry : α) (t : Table κ α) :
    (t.insert other entry).live ended key = t.live ended key := by
  rw [live, get?_insert, if_neg h, live]

theorem live_insert_self (entry : α) (t : Table κ α) :
    (t.insert key entry).live ended key = (some entry).filter fun entry => !ended entry := by
  rw [live, get?_insert, if_pos rfl]

end Table

/-! ### Views of a backend -/

namespace Backend

open DeadDrop.Action

variable {σ β : Type}

/-- A view shows the same under a key of two states. -/
def Alike (live : Clock → Text → σ → β) (clock : Clock) (key : Text) (s t : σ) : Prop :=
  live clock key s = live clock key t

/-- A view of what is live under the keys of a backend. Reads are vouched for at some times only. -/
structure LiveView [Backend σ] (live : Clock → Text → σ → β) (readable : Clock → Prop) : Prop where
  later : ∀ {c d : Clock}, c ≤ d → ∀ key s t, Alike live c key s t → Alike live d key s t
  read : ∀ {clock : Clock}, readable clock → ∀ key,
    Agree (Alike live clock key) (Backend.read clock key) (Backend.read clock key)
  write : ∀ (clock : Clock) (key : Text) (value : Bytes) (ttl : Option Nat),
    Agree (Alike live clock key) (Backend.write clock key value ttl)
      (Backend.write clock key value ttl)
  remove : ∀ (clock : Clock) (key : Text),
    Agree (Alike live clock key) (Backend.remove clock key >>= fun _ => pure ())
      (Backend.remove clock key >>= fun _ => pure ())
  keeps_read : ∀ (clock : Clock) (key other : Text),
    Keeps (live clock key) (Backend.read clock other)
  keeps_write : ∀ (clock : Clock) {key other : Text}, key ≠ other →
    ∀ (value : Bytes) (ttl : Option Nat),
      Keeps (live clock key) (Backend.write clock other value ttl)
  keeps_remove : ∀ (clock : Clock) {key other : Text}, key ≠ other →
    Keeps (live clock key) (Backend.remove clock other)
  keeps_sweep : ∀ (clock : Clock) (key : Text), Keeps (live clock key) (Backend.sweep clock)

end Backend

/-! ### Memory -/

namespace Memory

open DeadDrop.Action Backend

def live (clock : Clock) (key : Text) (m : Memory) : Option MemoryEntry :=
  m.entries.live (MemoryEntry.isOver clock.monotonic) key

theorem isOver_of_le {now later : Nat} (hle : now ≤ later) {entry : MemoryEntry}
    (h : entry.isOver now = true) : entry.isOver later = true := by
  obtain ⟨value, expiry⟩ := entry
  cases expiry with
  | none => exact h
  | some expiry =>
    simp only [MemoryEntry.isOver, decide_eq_true_eq] at h ⊢
    omega

theorem write_of_lt {clock : Clock} {ttl : Nat}
    (h : clock.monotonic + ttl < Memory.clockLimit) (key : Text) (value : Bytes) (m : Memory) :
    write clock key value (some ttl) m =
      (.ok (), ⟨m.entries.insert key ⟨value, some (clock.monotonic + ttl)⟩⟩) :=
  if_pos h

theorem read_fst (clock : Clock) (key : Text) (m : Memory) :
    (read clock key m).1 = .ok ((m.live clock key).map MemoryEntry.value) := by
  unfold read live Table.live
  cases m.entries.get? key with
  | none => rfl
  | some entry =>
    rw [Option.filter_some]
    cases hover : entry.isOver clock.monotonic <;> simp [hover]

theorem keeps_read (clock : Clock) (key other : Text) :
    Keeps (live clock key) (read clock other) := by
  intro m
  unfold read
  cases hentry : m.entries.get? other with
  | none => rfl
  | some entry =>
    by_cases hover : entry.isOver clock.monotonic = true
    · simp only [hover, if_true]
      exact Table.live_erase_of_over hentry hover
    · simp only [hover, Bool.false_eq_true, if_false]

theorem keeps_write (clock : Clock) {key other : Text} (h : key ≠ other) (value : Bytes)
    (ttl : Option Nat) : Keeps (live clock key) (write clock other value ttl) := by
  intro m
  unfold write
  cases ttl with
  | none => exact Table.live_insert_of_ne h _ m.entries
  | some ttl =>
    simp only
    split
    · exact Table.live_insert_of_ne h _ m.entries
    · rfl

theorem alike_read (clock : Clock) (key : Text) :
    Agree (Alike live clock key) (read clock key) (read clock key) := by
  intro s t h
  refine ⟨by rw [read_fst, read_fst, h], ?_⟩
  calc live clock key (read clock key s).2 = live clock key s := keeps_read clock key key s
    _ = live clock key t := h
    _ = live clock key (read clock key t).2 := (keeps_read clock key key t).symm

theorem alike_write (clock : Clock) (key : Text) (value : Bytes) (ttl : Option Nat) :
    Agree (Alike live clock key) (write clock key value ttl) (write clock key value ttl) := by
  intro s t h
  have hinsert : ∀ entry, Alike live clock key ⟨s.entries.insert key entry⟩
      ⟨t.entries.insert key entry⟩ := fun entry =>
    (Table.live_insert_self entry s.entries).trans (Table.live_insert_self entry t.entries).symm
  unfold write
  cases ttl with
  | none => exact ⟨rfl, hinsert _⟩
  | some ttl =>
    simp only
    split
    · exact ⟨rfl, hinsert _⟩
    · exact ⟨rfl, h⟩

theorem liveView : LiveView live fun _ => True where
  later {c d} hle key s t h := by
    have hover : ∀ entry : MemoryEntry,
        entry.isOver c.monotonic = true → entry.isOver d.monotonic = true :=
      fun entry => isOver_of_le (Clock.le_iff.1 hle).2
    unfold Alike live at h ⊢
    rw [Table.live_of_imp hover, Table.live_of_imp hover, h]
  read _ := alike_read _
  write := alike_write
  remove _ _ s t _ :=
    ⟨rfl, (Table.live_erase_self s.entries).trans (Table.live_erase_self t.entries).symm⟩
  keeps_read := keeps_read
  keeps_write := keeps_write
  keeps_remove _ _ _ h m := Table.live_erase_of_ne h m.entries
  keeps_sweep _ _ m := Table.live_filter m.entries

end Memory

/-! ### Rows -/

namespace Rows

open DeadDrop.Action Backend

/-- The wall clock's milliseconds, zero before 1970. -/
def millis (clock : Clock) : Nat := clock.wall.toNat / Row.million

def live (clock : Clock) (key : Text) (rows : Rows) : Option Bytes :=
  rows.table.live (isOver (millis clock)) key

/-- The wall clock has not passed the last millisecond. -/
def Readable (clock : Clock) : Prop := millis clock < Row.millisLimit

theorem isOver_of_le {now later : Nat} (hle : now ≤ later) {b : Bytes}
    (h : isOver now b = true) : isOver later b = true := by
  unfold isOver at h ⊢
  cases hrow : Row.decode? b with
  | none => simp [hrow] at h
  | some row =>
    obtain ⟨value, expiry⟩ := row
    cases expiry with
    | none => simp [hrow, Row.isOver] at h
    | some expiry =>
      simp only [hrow, Row.isOver, decide_eq_true_eq] at h ⊢
      omega

theorem millis_of_millisOf {clock : Clock} {now : Nat} (h : Row.millisOf clock = .ok now) :
    millis clock = now := by
  obtain ⟨hpast, hnow, _⟩ := Row.millisOf_eq_ok_iff.1 h
  simp only [millis, Row.million] at hnow ⊢
  omega

/-- What is live alike at one time is live alike at every later time of the wall clock. -/
theorem alike_of_wall_le {c d : Clock} (hle : c.wall ≤ d.wall) {key : Text} {s t : Rows}
    (h : Alike live c key s t) : Alike live d key s t := by
  have hmillis : millis c ≤ millis d := Nat.div_le_div_right (Int.toNat_le_toNat hle)
  have hover : ∀ b, isOver (millis c) b = true → isOver (millis d) b = true :=
    fun b => isOver_of_le hmillis
  unfold Alike live at h ⊢
  rw [Table.live_of_imp hover, Table.live_of_imp hover, h]

/-- No row is over in the millisecond of 1970: the header has no such expiry. -/
theorem isOver_zero (b : Bytes) : isOver 0 b = false := by
  unfold isOver Row.decode?
  by_cases hshort : b.length < Row.headerLength
  · simp only [if_pos hshort]
  · simp only [if_neg hshort, Row.isOver]
    by_cases hzero : Bytes.toNatBE (b.take Row.headerLength) = 0
    · simp only [if_pos hzero]
    · simp only [if_neg hzero, decide_eq_false_iff_not]
      omega

theorem keeps_read (clock : Clock) (key other : Text) :
    Keeps (live clock key) (read clock other) := by
  intro rows
  unfold read
  cases hbytes : rows.table.get? other with
  | none => rfl
  | some b =>
    cases hrow : Row.decode? b with
    | none => simp only [hrow]
    | some row =>
      by_cases hkept : row.expiry.isNone = true
      · simp only [hrow, hkept, if_true]
      · simp only [hrow, hkept, Bool.false_eq_true, if_false]
        cases hnow : Row.millisOf clock with
        | error fault => rfl
        | ok now =>
          by_cases hover : row.isOver now = true
          · have hbytesOver : isOver (millis clock) b = true := by
              rw [millis_of_millisOf hnow, isOver, hrow]
              exact hover
            simp only [hover, if_true]
            exact Table.live_erase_of_over hbytes hbytesOver
          · simp only [hover, Bool.false_eq_true, if_false]

theorem keeps_write (clock : Clock) {key other : Text} (h : key ≠ other) (value : Bytes)
    (ttl : Option Nat) : Keeps (live clock key) (write clock other value ttl) := by
  intro rows
  unfold write
  simp only
  split
  · rfl
  · exact Table.live_insert_of_ne h _ rows.table

theorem keeps_sweep (clock : Clock) (key : Text) : Keeps (live clock key) (sweep clock) := by
  intro rows
  unfold sweep
  split
  · cases hnow : Row.millisOf clock with
    | error fault => rfl
    | ok now =>
      rw [← millis_of_millisOf hnow]
      exact Table.live_filter rows.table
  · rfl

/-- What a read answers where some bytes are live, or none. -/
def answer (clock : Clock) (key : Text) : Option Bytes → Outcome StorageFault (Option Bytes)
  | none => .ok none
  | some b =>
    match Row.decode? b with
    | none => .error (.shortRow key b.length)
    | some row =>
      if row.expiry.isNone then .ok (some row.value)
      else
        match Row.millisOf clock with
        | .error fault => .error fault
        | .ok _ => .ok (some row.value)

theorem millisOf_of_readable {clock : Clock} (h : Readable clock) :
    Row.millisOf clock = .ok (millis clock) ∨
      Row.millisOf clock = .error .clockBeforeEpoch ∧ millis clock = 0 := by
  unfold Row.millisOf
  by_cases hpast : clock.wall < 0
  · have hzero : millis clock = 0 := by
      simp only [millis, Row.million]
      omega
    exact .inr ⟨if_pos hpast, hzero⟩
  · rw [if_neg hpast]
    exact .inl (if_pos h)

theorem read_fst {clock : Clock} (hreadable : Readable clock) (key : Text) (rows : Rows) :
    (read clock key rows).1 = answer clock key (rows.live clock key) := by
  unfold read live Table.live
  cases hbytes : rows.table.get? key with
  | none => rfl
  | some b =>
    rw [Option.filter_some]
    cases hrow : Row.decode? b with
    | none => simp [isOver, answer, hrow]
    | some row =>
      have hover : isOver (millis clock) b = row.isOver (millis clock) := by rw [isOver, hrow]
      cases hexpiry : row.expiry with
      | none => simp [answer, hrow, hover, Row.isOver, hexpiry]
      | some expiry =>
        rcases millisOf_of_readable hreadable with hnow | ⟨hnow, hzero⟩
        · cases hrowOver : row.isOver (millis clock) with
          | false => simp [answer, hrow, hover, hexpiry, hnow, hrowOver]
          | true => simp [answer, hrow, hover, hexpiry, hnow, hrowOver]
        · simp [answer, hrow, hexpiry, hnow, hzero, isOver_zero]

theorem alike_read {clock : Clock} (hreadable : Readable clock) (key : Text) :
    Agree (Alike live clock key) (read clock key) (read clock key) := by
  intro s t h
  refine ⟨by rw [read_fst hreadable, read_fst hreadable, h], ?_⟩
  calc live clock key (read clock key s).2 = live clock key s := keeps_read clock key key s
    _ = live clock key t := h
    _ = live clock key (read clock key t).2 := (keeps_read clock key key t).symm

theorem alike_write (clock : Clock) (key : Text) (value : Bytes) (ttl : Option Nat) :
    Agree (Alike live clock key) (write clock key value ttl) (write clock key value ttl) := by
  intro s t h
  unfold write
  simp only
  split
  · exact ⟨rfl, h⟩
  · exact ⟨rfl,
      (Table.live_insert_self _ s.table).trans (Table.live_insert_self _ t.table).symm⟩

theorem liveView : LiveView live Readable where
  later hle _ _ _ h := alike_of_wall_le (Clock.le_iff.1 hle).1 h
  read := alike_read
  write := alike_write
  remove _ _ s t _ :=
    ⟨rfl, (Table.live_erase_self s.table).trans (Table.live_erase_self t.table).symm⟩
  keeps_read := keeps_read
  keeps_write := keeps_write
  keeps_remove _ _ _ h rows := Table.live_erase_of_ne h rows.table
  keeps_sweep := keeps_sweep

end Rows

end DeadDrop
