import DeadDrop.Proofs.Store.Row
import DeadDrop.Store.Faulty

/-!
# What a backend holds

The values that a backend holds, whatever their time: a read gives one of them, a write adds its
value at most, and nothing else adds any. What holds of every value held is therefore a question of
the writes alone, also where operations fail, abort or are switched off.
-/

namespace DeadDrop

/-! ### Tables -/

namespace Table

variable {κ α β : Type} [LT κ]

/-- Some entry has this value. -/
def Held (value : α → β) (t : Table κ α) (b : β) : Prop :=
  ∃ entry ∈ t.entries, value entry.2 = b

variable {value : α → β} {t : Table κ α} {b : β}

theorem held_of_get? [DecidableEq κ] {key : κ} {a : α} (h : t.get? key = some a) :
    t.Held value (value a) :=
  ⟨(key, a), Assoc.mem_of_get?_eq_some h, rfl⟩

theorem Held.of_filter {keep : κ → α → Bool} (h : (t.filter keep).Held value b) :
    t.Held value b := by
  obtain ⟨entry, hentry, heq⟩ := h
  exact ⟨entry, (List.mem_filter.1 hentry).1, heq⟩

theorem Held.of_insert [DecidableLT κ] [DecidableEq κ] [KeyOrder κ] {key : κ} {a : α}
    (h : (t.insert key a).Held value b) : b = value a ∨ t.Held value b := by
  obtain ⟨entry, hentry, rfl⟩ := h
  rcases Assoc.mem_insert hentry with rfl | hold
  · exact .inl rfl
  · exact .inr ⟨entry, hold, rfl⟩

theorem not_held_empty : ¬ (Table.empty : Table κ α).Held value b := by
  rintro ⟨entry, hentry, -⟩
  cases hentry

end Table

/-! ### Backends -/

namespace Backend

class Contents (σ : Type) [Backend σ] where
  /-- The value is held under some key. -/
  Holds : σ → Bytes → Prop
  of_read : ∀ {clock : Clock} {key : Text} {s : σ} {found : Bytes},
    (read clock key s).1 = .ok (some found) → Holds s found
  after_read : ∀ {clock : Clock} {key : Text} {s : σ} {b : Bytes},
    Holds (read clock key s).2 b → Holds s b
  after_write : ∀ {clock : Clock} {key : Text} {value : Bytes} {ttl : Option Nat} {s : σ}
    {b : Bytes}, Holds (write clock key value ttl s).2 b → b = value ∨ Holds s b
  after_remove : ∀ {clock : Clock} {key : Text} {s : σ} {b : Bytes},
    Holds (remove clock key s).2 b → Holds s b
  after_sweep : ∀ {clock : Clock} {s : σ} {b : Bytes}, Holds (sweep clock s).2 b → Holds s b

export Contents (Holds)

end Backend

open Backend (Contents Holds)

namespace Memory

instance : Contents Memory where
  Holds m b := m.entries.Held MemoryEntry.value b
  of_read {clock key m found} h := by
    change (read clock key m).1 = _ at h
    unfold read at h
    cases hentry : m.entries.get? key with
    | none => simp [hentry] at h
    | some entry =>
      rw [hentry] at h
      simp only at h
      split at h
      · simp at h
      · obtain rfl : entry.value = found := by simpa using h
        exact Table.held_of_get? hentry
  after_read {clock key m b} h := by
    change (read clock key m).2.entries.Held MemoryEntry.value b at h
    unfold read at h
    cases hentry : m.entries.get? key with
    | none => simpa only [hentry] using h
    | some entry =>
      rw [hentry] at h
      simp only at h
      split at h
      · exact h.of_filter
      · exact h
  after_write {clock key value ttl m b} h := by
    change (write clock key value ttl m).2.entries.Held MemoryEntry.value b at h
    unfold write at h
    cases ttl with
    | none => exact h.of_insert
    | some ttl =>
      simp only at h
      split at h
      · exact h.of_insert
      · exact .inr h
  after_remove h := Table.Held.of_filter h
  after_sweep h := Table.Held.of_filter h

end Memory

namespace Rows

/-- The value in the bytes of a row. -/
def valueOf (b : Bytes) : Bytes := b.drop Row.headerLength

theorem valueOf_of_decode? {b : Bytes} {row : Row} (h : Row.decode? b = some row) :
    row.value = valueOf b := by
  unfold Row.decode? at h
  split at h
  · cases h
  · rw [← Option.some.inj h]
    rfl

theorem valueOf_encode (row : Row) : valueOf row.encode = row.value :=
  List.drop_left' (Bytes.length_ofNatBE _ _)

instance : Contents Rows where
  Holds rows b := rows.table.Held valueOf b
  of_read {clock key rows found} h := by
    change (read clock key rows).1 = _ at h
    unfold read at h
    cases hbytes : rows.table.get? key with
    | none => simp [hbytes] at h
    | some b =>
      rw [hbytes] at h
      cases hrow : Row.decode? b with
      | none => simp [hrow] at h
      | some row =>
        have hheld : rows.table.Held valueOf row.value :=
          valueOf_of_decode? hrow ▸ Table.held_of_get? hbytes
        simp only [hrow] at h
        split at h
        · obtain rfl : row.value = found := by simpa using h
          exact hheld
        · split at h
          · cases h
          · split at h
            · simp at h
            · obtain rfl : row.value = found := by simpa using h
              exact hheld
  after_read {clock key rows b} h := by
    change (read clock key rows).2.table.Held valueOf b at h
    unfold read at h
    repeat' split at h
    all_goals first | exact h | exact h.of_filter
  after_write {clock key value ttl rows b} h := by
    change (write clock key value ttl rows).2.table.Held valueOf b at h
    unfold write at h
    simp only at h
    split at h
    · exact .inr h
    · rename_i row hrow
      have hvalue : row.value = value := by
        cases ttl with
        | none => exact Except.ok.inj hrow ▸ rfl
        | some ttl =>
          obtain ⟨-, now, -, rfl⟩ := Row.withTtl_eq_ok_iff.1 hrow
          rfl
      rcases Table.Held.of_insert h with rfl | hold
      · exact .inl ((valueOf_encode row).trans hvalue)
      · exact .inr hold
  after_remove h := Table.Held.of_filter h
  after_sweep {clock rows b} h := by
    change (sweep clock rows).2.table.Held valueOf b at h
    unfold sweep at h
    repeat' split at h
    all_goals first | exact h | exact h.of_filter

end Rows

namespace Faulty

variable {σ : Type} [Backend σ] [Contents σ]

/-- A switch lets an operation through or keeps everything as it is. -/
theorem holds_guarded {α : Type} {operation : BackendOperation}
    {action : Action σ StorageFault α} {f : Faulty σ} {b : Bytes}
    (h : Holds (guarded operation action f).2.inner b) :
    Holds (action f.inner).2 b ∨ Holds f.inner b := by
  unfold guarded at h
  split at h
  · exact .inr h
  · exact .inl h

instance : Contents (Faulty σ) where
  Holds f b := Holds f.inner b
  of_read {clock key f found} h := by
    change (guarded .read (Backend.read clock key) f).1 = _ at h
    unfold guarded at h
    split at h
    · cases h
    · exact Contents.of_read h
  after_read h := (holds_guarded h).elim Contents.after_read id
  after_write h := (holds_guarded h).elim Contents.after_write .inr
  after_remove h := (holds_guarded h).elim Contents.after_remove id
  after_sweep h := (holds_guarded h).elim Contents.after_sweep id

end Faulty

namespace Storage

instance : Contents Storage where
  Holds
    | .memory m, b => Holds m b
    | .rows r, b => Holds r b
    | .faulty f, b => Holds f b
  of_read {clock key s found} h := by
    cases s <;> exact Contents.of_read h
  after_read {clock key s b} h := by
    cases s <;> exact Contents.after_read h
  after_write {clock key value ttl s b} h := by
    cases s <;> exact Contents.after_write h
  after_remove {clock key s b} h := by
    cases s <;> exact Contents.after_remove h
  after_sweep {clock s b} h := by
    cases s <;> exact Contents.after_sweep h

end Storage

end DeadDrop
