import DeadDrop.Proofs.Store.Live
import DeadDrop.Proofs.Store.RecordStore
import DeadDrop.Store.Faulty

/-!
# What a failed operation leaves

An operation of a backend that fails has kept nothing and removed nothing, except that a read or a
sweep may have removed entries whose time was over. This holds of both backends for whatever they
hold, and it still holds behind switches that make operations fail. The record store and all that is
built on it inherit it, since each of their calls touches the backend in one place only after which
it can still fail.

The other half is about what must not pass for an absence: a read that finds nothing has met no
entry whose time is not over.
-/

namespace DeadDrop

open DeadDrop.Action

/-! ### Tables -/

namespace Table

variable {κ α : Type} [LT κ] [DecidableEq κ]

/-- The second table has the entries of the first, less some whose time is over. -/
def Reclaimed (ended : α → Bool) (t t' : Table κ α) : Prop :=
  ∀ key, t'.get? key = t.get? key ∨
    t'.get? key = none ∧ ∃ entry, t.get? key = some entry ∧ ended entry = true

variable {ended : α → Bool} {t t' t'' : Table κ α}

theorem reclaimed_refl (t : Table κ α) : t.Reclaimed ended t := fun _ => .inl rfl

theorem Reclaimed.trans (h : t.Reclaimed ended t') (h' : t'.Reclaimed ended t'') :
    t.Reclaimed ended t'' := by
  intro key
  rcases h' key with hsame' | ⟨hgone', entry, hentry', hover⟩
  · rw [hsame']
    exact h key
  · rcases h key with hsame | ⟨hgone, _⟩
    · exact .inr ⟨hgone', entry, hsame ▸ hentry', hover⟩
    · rw [hgone] at hentry'
      exact absurd hentry' (by simp)

/-- An entry whose time is not over is still there. -/
theorem Reclaimed.get?_of_live (h : t.Reclaimed ended t') {key : κ} {entry : α}
    (hentry : t.get? key = some entry) (hlive : ended entry = false) :
    t'.get? key = some entry := by
  rcases h key with hsame | ⟨_, other, hother, hover⟩
  · rw [hsame, hentry]
  · obtain rfl := Option.some.inj (hentry.symm.trans hother)
    rw [hlive] at hover
    exact absurd hover (by simp)

variable [KeyOrder κ]

theorem reclaimed_erase {key : κ} {entry : α} (hentry : t.get? key = some entry)
    (hover : ended entry = true) : t.Reclaimed ended (t.erase key) := by
  intro other
  rw [get?_erase]
  by_cases hkey : other = key
  · rw [if_pos hkey, hkey]
    exact .inr ⟨rfl, entry, hentry, hover⟩
  · rw [if_neg hkey]
    exact .inl rfl

theorem reclaimed_filter (t : Table κ α) :
    t.Reclaimed ended (t.filter fun _ entry => !ended entry) := by
  intro key
  rw [get?_filter]
  cases hentry : t.get? key with
  | none => exact .inl rfl
  | some entry =>
    rw [Option.filter_some]
    cases hover : ended entry with
    | false => exact .inl rfl
    | true => exact .inr ⟨rfl, entry, rfl, hover⟩

end Table

/-! ### Backends -/

namespace Backend

variable {σ β : Type}

/-- The entries after are the entries before, less some whose time is over. -/
def Reclaimed (entries : σ → Table Text β) (ended : β → Bool) (s s' : σ) : Prop :=
  (entries s).Reclaimed ended (entries s')

/-- A view of the entries that a backend holds. Its operations reclaim at most, if they fail; reads
and sweeps never do more. What a read does not find is absent or its time is over. -/
structure SafeView [Backend σ] (entries : σ → Table Text β) (ended : Clock → β → Bool) : Prop where
  read : ∀ (clock : Clock) (key : Text),
    Within (Reclaimed entries (ended clock)) (Backend.read clock key)
  write : ∀ (clock : Clock) (key : Text) (value : Bytes) (ttl : Option Nat),
    FailsWithin (Reclaimed entries (ended clock)) (Backend.write clock key value ttl)
  remove : ∀ (clock : Clock) (key : Text),
    FailsWithin (Reclaimed entries (ended clock)) (Backend.remove clock key)
  sweep : ∀ clock : Clock, Within (Reclaimed entries (ended clock)) (Backend.sweep clock)
  read_ne_abort : ∀ (clock : Clock) (key : Text) (s : σ), (Backend.read clock key s).1 ≠ .abort
  over_of_not_found : ∀ {clock : Clock} {key : Text} {s : σ} {entry : β},
    (Backend.read clock key s).1 = .ok none →
    (entries s).get? key = some entry → ended clock entry = true

end Backend

open Backend

/-! ### Memory -/

namespace Memory

theorem safeView : SafeView Memory.entries fun clock => MemoryEntry.isOver clock.monotonic where
  read clock key m := by
    change m.entries.Reclaimed _ (read clock key m).2.entries
    unfold read
    cases hentry : m.entries.get? key with
    | none => exact Table.reclaimed_refl _
    | some entry =>
      by_cases hover : entry.isOver clock.monotonic = true
      · simp only [hover, if_true]
        exact Table.reclaimed_erase hentry hover
      · simp only [hover, Bool.false_eq_true, if_false]
        exact Table.reclaimed_refl _
  write clock key value ttl m hfails := by
    change m.entries.Reclaimed _ (write clock key value ttl m).2.entries
    change ∀ done, (write clock key value ttl m).1 ≠ .ok done at hfails
    unfold write at hfails ⊢
    cases ttl with
    | none => exact absurd rfl (hfails ())
    | some ttl =>
      simp only at hfails ⊢
      split at hfails
      · exact absurd rfl (hfails ())
      · rename_i hlimit
        rw [if_neg hlimit]
        exact Table.reclaimed_refl _
  remove _ _ _ hfails := absurd rfl (hfails _)
  sweep _ m := Table.reclaimed_filter m.entries
  read_ne_abort clock key m := by
    change (read clock key m).1 ≠ _
    rw [read_fst]
    simp
  over_of_not_found {clock key m entry} hread hentry := by
    change (read clock key m).1 = _ at hread
    rw [read_fst, live, Table.live, hentry, Option.filter_some] at hread
    cases hover : entry.isOver clock.monotonic with
    | true => rfl
    | false => simp [hover] at hread

end Memory

/-! ### Rows -/

namespace Rows

/-- What a read does to a table of rows, and what it can end with. -/
theorem read_cases (clock : Clock) (key : Text) (rows : Rows) :
    (∃ o, read clock key rows = (o, rows) ∧ o ≠ .abort ∧
      (o = .ok none → rows.table.get? key = none)) ∨
    (∃ b, rows.table.get? key = some b ∧ isOver (millis clock) b = true ∧
      read clock key rows = (.ok none, ⟨rows.table.erase key⟩)) := by
  unfold read
  cases hbytes : rows.table.get? key with
  | none => exact .inl ⟨_, rfl, by simp, fun _ => rfl⟩
  | some b =>
    cases hrow : Row.decode? b with
    | none => exact .inl ⟨_, by simp only [hrow]; rfl, by simp, by simp⟩
    | some row =>
      simp only [hrow]
      -- the clock is read only for a row that expires
      by_cases hkept : row.expiry.isNone = true
      · rw [if_pos hkept]
        exact .inl ⟨_, rfl, by simp, by simp⟩
      · rw [if_neg hkept]
        cases hnow : Row.millisOf clock with
        | error fault => exact .inl ⟨_, rfl, by simp, by simp⟩
        | ok now =>
          by_cases hover : row.isOver now = true
          · have hbytesOver : isOver (millis clock) b = true := by
              rw [millis_of_millisOf hnow, isOver, hrow]
              exact hover
            exact .inr ⟨b, rfl, hbytesOver, if_pos hover⟩
          · exact .inl ⟨_, if_neg hover, by simp, by simp⟩

theorem safeView : SafeView Rows.table fun clock => isOver (millis clock) where
  read clock key rows := by
    change rows.table.Reclaimed _ (read clock key rows).2.table
    rcases read_cases clock key rows with ⟨o, hread, _⟩ | ⟨b, hbytes, hover, hread⟩
    · rw [hread]
      exact Table.reclaimed_refl _
    · rw [hread]
      exact Table.reclaimed_erase hbytes hover
  write clock key value ttl rows hfails := by
    change rows.table.Reclaimed _ (write clock key value ttl rows).2.table
    change ∀ done, (write clock key value ttl rows).1 ≠ .ok done at hfails
    unfold write at hfails ⊢
    simp only at hfails ⊢
    split
    · exact Table.reclaimed_refl _
    · rename_i row hrow
      rw [hrow] at hfails
      exact absurd rfl (hfails ())
  remove _ _ _ hfails := absurd rfl (hfails _)
  sweep clock rows := by
    change rows.table.Reclaimed _ (sweep clock rows).2.table
    unfold sweep
    split
    · cases hnow : Row.millisOf clock with
      | error fault => exact Table.reclaimed_refl _
      | ok now =>
        rw [← millis_of_millisOf hnow]
        exact Table.reclaimed_filter rows.table
    · exact Table.reclaimed_refl _
  read_ne_abort clock key rows := by
    change (read clock key rows).1 ≠ _
    rcases read_cases clock key rows with ⟨o, hread, habort, _⟩ | ⟨b, _, _, hread⟩
    · rwa [hread]
    · rw [hread]
      simp
  over_of_not_found {clock key rows entry} hread hentry := by
    change (read clock key rows).1 = _ at hread
    rcases read_cases clock key rows with ⟨o, hcase, _, hnone⟩ | ⟨b, hbytes, hover, _⟩
    · rw [hcase] at hread
      rw [hnone hread] at hentry
      exact absurd hentry (by simp)
    · rw [hbytes] at hentry
      exact Option.some.inj hentry ▸ hover

end Rows

/-! ### Behind switches -/

namespace Faulty

variable {σ β α : Type}

/-- Behind its switch an operation runs as it does without one, or is refused. -/
theorem guarded_cases (operation : BackendOperation) (action : Action σ StorageFault α)
    (f : Faulty σ) :
    (∃ reason, guarded operation action f = (.error (.refused reason), f)) ∨
      guarded operation action f =
        ((action f.inner).1, { f with inner := (action f.inner).2 }) := by
  unfold guarded
  split
  · exact .inl ⟨_, rfl⟩
  · exact .inr rfl

variable {entries : σ → Table Text β} {ended : β → Bool}

theorem within_guarded (operation : BackendOperation) {action : Action σ StorageFault α}
    (h : Within (Reclaimed entries ended) action) :
    Within (Reclaimed (fun f : Faulty σ => entries f.inner) ended) (guarded operation action) := by
  intro f
  rcases guarded_cases operation action f with ⟨reason, hrefused⟩ | hran
  · rw [hrefused]
    exact Table.reclaimed_refl _
  · rw [hran]
    exact h f.inner

theorem failsWithin_guarded (operation : BackendOperation) {action : Action σ StorageFault α}
    (h : FailsWithin (Reclaimed entries ended) action) :
    FailsWithin (Reclaimed (fun f : Faulty σ => entries f.inner) ended)
      (guarded operation action) := by
  intro f hfails
  rcases guarded_cases operation action f with ⟨reason, hrefused⟩ | hran
  · rw [hrefused]
    exact Table.reclaimed_refl _
  · rw [hran] at hfails ⊢
    exact h f.inner hfails

theorem safeView [Backend σ] {ended : Clock → β → Bool} (h : SafeView entries ended) :
    SafeView (fun f : Faulty σ => entries f.inner) ended where
  read clock key := within_guarded .read (h.read clock key)
  write clock key value ttl := failsWithin_guarded .write (h.write clock key value ttl)
  remove clock key := failsWithin_guarded .remove (h.remove clock key)
  sweep clock f :=
    within_guarded .sweep (h.sweep clock) { f with sweeps := f.sweeps + 1 }
  read_ne_abort clock key f := by
    change (guarded .read (Backend.read clock key) f).1 ≠ _
    rcases guarded_cases .read (Backend.read clock key) f with ⟨reason, hrefused⟩ | hran
    · rw [hrefused]
      simp
    · rw [hran]
      exact h.read_ne_abort clock key f.inner
  over_of_not_found {clock key f entry} hread hentry := by
    change (guarded .read (Backend.read clock key) f).1 = _ at hread
    rcases guarded_cases .read (Backend.read clock key) f with ⟨reason, hrefused⟩ | hran
    · rw [hrefused] at hread
      exact absurd hread (by simp)
    · rw [hran] at hread
      exact h.over_of_not_found hread hentry

end Faulty

/-! ### The record store -/

namespace RecordStore

variable {σ β α : Type}

/-- The same retention time, and the entries less some whose time is over. -/
structure Reclaimed (entries : σ → Table Text β) (ended : β → Bool) (s s' : RecordStore σ) :
    Prop where
  retention : s'.retention = s.retention
  entries : (entries s.backend).Reclaimed ended (entries s'.backend)

variable {entries : σ → Table Text β} {ended : β → Bool}

theorem reclaimed_refl (s : RecordStore σ) : Reclaimed entries ended s s :=
  ⟨rfl, Table.reclaimed_refl _⟩

theorem Reclaimed.trans {s s' s'' : RecordStore σ} (h : Reclaimed entries ended s s')
    (h' : Reclaimed entries ended s' s'') : Reclaimed entries ended s s'' :=
  ⟨h'.retention.trans h.retention, h.entries.trans h'.entries⟩

theorem within_onBackend {action : Action σ StorageFault α}
    (h : Within (Backend.Reclaimed entries ended) action) :
    Within (Reclaimed entries ended) (onBackend action) := fun s => ⟨rfl, h s.backend⟩

theorem failsWithin_onBackend {action : Action σ StorageFault α}
    (h : FailsWithin (Backend.Reclaimed entries ended) action) :
    FailsWithin (Reclaimed entries ended) (onBackend action) := by
  intro s hfails
  refine ⟨rfl, h s.backend fun value hvalue => hfails value ?_⟩
  simp only [onBackend, hvalue]
  rfl

variable [Backend σ] {ended : Clock → β → Bool}

theorem failsWithin_put (h : SafeView entries ended) (clock : Clock) (key : Text)
    (record : Record) : FailsWithin (Reclaimed entries (ended clock)) (put clock key record) :=
  fun s => failsWithin_onBackend (h.write clock key record.toBytes (some s.retention)) s

theorem within_getBytes (h : SafeView entries ended) (clock : Clock) (key : Text) :
    Within (Reclaimed entries (ended clock)) (getBytes clock key) := by
  intro s
  rw [getBytes_eq]
  exact ⟨rfl, h.read clock key s.backend⟩

theorem within_get (h : SafeView entries ended) (clock : Clock) (key : Text) :
    Within (Reclaimed entries (ended clock)) (get clock key) := by
  intro s
  rw [get_eq]
  exact ⟨rfl, h.read clock key s.backend⟩

theorem within_getOrEmpty (h : SafeView entries ended) (clock : Clock) (key : Text) :
    Within (Reclaimed entries (ended clock)) (getOrEmpty clock key) := by
  intro s
  rw [getOrEmpty_eq]
  exact within_get h clock key s

theorem failsWithin_delete (h : SafeView entries ended) (clock : Clock) (key : Text) :
    FailsWithin (Reclaimed entries (ended clock)) (delete clock key) := by
  rw [delete_eq]
  exact failsWithin_onBackend ((h.remove clock key).bind_pure fun _ => ())

/-- Where an entry is held whose time is not over, a record that cannot be had is a fault of the
stored bytes or of the storage, and is not taken for missing. -/
theorem get_eq_error_of_live (h : SafeView entries ended) {clock : Clock} {key : Text} {entry : β}
    {s : RecordStore σ} (hentry : (entries s.backend).get? key = some entry)
    (hlive : ended clock entry = false) (hfails : ∀ record, (get clock key s).1 ≠ .ok record) :
    ∃ reason, (get clock key s).1 = .error (.decode reason) ∨
      (get clock key s).1 = .error (.storage reason) := by
  rw [get_eq] at hfails ⊢
  cases hread : (Backend.read clock key s.backend).1 with
  | ok found =>
    cases found with
    | none =>
      rw [h.over_of_not_found hread hentry] at hlive
      exact absurd hlive (by simp)
    | some b =>
      rw [hread] at hfails
      simp only [readBytes, Outcome.mapError_ok, Outcome.bind, decoded] at hfails ⊢
      cases hrecord : Record.ofBytes? b with
      | none => exact ⟨_, .inl rfl⟩
      | some record =>
        rw [hrecord] at hfails
        exact absurd rfl (hfails record)
  | error fault => exact ⟨_, .inr rfl⟩
  | abort => exact absurd hread (h.read_ne_abort clock key s.backend)

end RecordStore

end DeadDrop
