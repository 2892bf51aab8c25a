import DeadDrop.Proofs.Service.Errors
import DeadDrop.Proofs.Service.Readable

/-!
# The stored form of records

Every record has a stored form, but the reader keeps a limit that the writer does not have. So what
is written is read back as it was or refused as no record, and it is the depth of the record that
tells which (`decoded_toBytes`).

Bytes that are read need not be such a form: there may be blanks in them, escapes, repeated names and
names out of order. But a record that has been read keeps the limit, whatever it was read from. So it
has a stored form that is read again, and writing it once more changes nothing.

A mapping within a record is shown as the stored form of its fields, so what is shown of it is a record.
-/

namespace DeadDrop.RecordStore

variable {σ : Type}

/-! ### Writing -/

/-- A write fails with the backend only. Every record has a stored form. -/
theorem put_ne_encode [Backend σ] (clock : Clock) (key : Text) (record : Record)
    (s : RecordStore σ) (reason : Text) : (put clock key record s).1 ≠ .error (.encode reason) :=
  fun h => failsOnly_put clock key record s _ h

/-! ### Reading -/

theorem depth_le_of_decoded {b : Bytes} {record : Record} (h : decoded b = .ok record) :
    record.depth ≤ Record.nestingLimit :=
  Record.depth_le_of_ofBytes? (decoded_eq_ok h)

theorem decoded_toBytes_of_le {record : Record} (h : record.depth ≤ Record.nestingLimit) :
    decoded record.toBytes = .ok record := by
  rw [decoded_toBytes, if_pos h]

/-- What has been read from any bytes is read from its stored form as well. -/
theorem decoded_toBytes_of_decoded {b : Bytes} {record : Record} (h : decoded b = .ok record) :
    decoded record.toBytes = .ok record :=
  decoded_toBytes_of_le (depth_le_of_decoded h)

/-- The record store answers a read with what the reader makes of the bytes it finds. -/
theorem get_of_read [Backend σ] {clock : Clock} {key : Text} {s : RecordStore σ} {b : Bytes}
    (h : (Backend.read clock key s.backend).1 = .ok (some b)) :
    (get clock key s).1 = decoded b := by
  rw [get_eq, h]
  rfl

/-- What is shown of a mapping is the stored form of the record with its fields. -/
theorem decoded_toPlain {fields : List (Text × Value)} (h : (Value.node fields).Canonical)
    (hdepth : (Value.node fields).depth ≤ Record.nestingLimit) :
    decoded (Value.node fields).toPlain.toUtf8 = .ok ⟨fields, h⟩ := by
  let whole : Record := ⟨fields, h⟩
  have hplain : (Value.node fields).toPlain = whole.toJson := rfl
  have hwhole : whole.depth ≤ Record.nestingLimit := by
    rwa [Value.depth] at hdepth
  rw [hplain]
  exact decoded_toBytes_of_le hwhole

/-- **The stored form of records.** Every record is written. It is read back as it was if its objects
are at most 127 inside of one another, the root included, and as no record otherwise. Bytes that are
read as a record may have been written in any way: the record is read back from its own stored form,
and this form is the same when it is written once more. What is shown of a mapping within the limit
is read as the record with its fields. -/
theorem stored_form_round_trips [Backend σ] (clock : Clock) (key : Text) (s : RecordStore σ) :
    (∀ record, (∀ reason, (put clock key record s).1 ≠ .error (.encode reason)) ∧
      (record.depth ≤ 127 → decoded record.toBytes = .ok record) ∧
      (127 < record.depth → ∃ reason, decoded record.toBytes = .error (.decode reason))) ∧
    (∀ b record, decoded b = .ok record →
      decoded record.toBytes = .ok record ∧
        ∀ again, decoded record.toBytes = .ok again → again.toBytes = record.toBytes) ∧
    (∀ fields (h : (Value.node fields).Canonical), (Value.node fields).depth ≤ 127 →
      decoded (Value.node fields).toPlain.toUtf8 = .ok ⟨fields, h⟩) ∧
    ∀ b, (Backend.read clock key s.backend).1 = .ok (some b) →
      (get clock key s).1 = decoded b := by
  refine ⟨fun record => ⟨fun reason => put_ne_encode clock key record s reason,
    fun hdepth => decoded_toBytes_of_le hdepth, fun hdepth => ?_⟩,
    fun b record hread => ?_, fun fields h hdepth => decoded_toPlain h hdepth,
    fun b hread => get_of_read hread⟩
  · have hbeyond : ¬ record.depth ≤ Record.nestingLimit := Nat.not_le.2 hdepth
    exact ⟨_, by rw [decoded_toBytes, if_neg hbeyond, undecodable]⟩
  · have hstored := decoded_toBytes_of_decoded hread
    refine ⟨hstored, fun again hagain => ?_⟩
    rw [hstored, Outcome.ok.injEq] at hagain
    rw [hagain]

/-- A record with as many mappings inside of its root as told. -/
def nested : Nat → Record
  | 0 => .empty
  | n + 1 => Record.empty.insertNode ['a'] (nested n)

theorem depth_nested (n : Nat) : (nested n).depth = n + 1 := by
  induction n with
  | zero => rfl
  | succ n ih =>
    have hdepth : (nested (n + 1)).depth = max (nested n).depth 0 + 1 := rfl
    rw [hdepth, ih, Nat.max_zero]

/-- Bytes with blanks, an escape that the writer does not use, a repeated name and names out of
order; and records on both sides of the limit. -/
theorem stored_form_round_trips_sample :
    let clock : Clock := ⟨0, 0⟩
    let b := Text.toUtf8
      "\x7b \"b\": \x7b\x7d, \"a\": \"\\u0041\", \"b\": \"\\u001f\" \x7d".toList
    let store : RecordStore Memory := ⟨(Memory.write clock ['k'] b none .empty).2, 0⟩
    (∃ record, decoded b = .ok record ∧ record.toBytes ≠ b ∧ decoded record.toBytes = .ok record ∧
      (get clock ['k'] store).1 = .ok record) ∧
    decoded (nested 126).toBytes = .ok (nested 126) ∧
    (∃ reason, decoded (nested 127).toBytes = .error (.decode reason)) ∧
    decoded (Value.node (nested 126).fields).toPlain.toUtf8 = .ok (nested 126) := by
  intro clock b store
  obtain ⟨hrecord, hbytes, hplain, hget⟩ := stored_form_round_trips clock ['k'] store
  have hinside : (nested 126).depth ≤ 127 := by rw [depth_nested]
  have hbeyond : 127 < (nested 127).depth := by
    rw [depth_nested]
    decide
  have hread : decoded b =
      .ok ((Record.empty.insertLeaf ['a'] ['A']).insertLeaf ['b'] ['\x1f']) := rfl
  have hstored : (get clock ['k'] store).1 = decoded b := hget b rfl
  refine ⟨⟨_, hread, by decide, (hbytes b _ hread).1, hstored.trans hread⟩,
    (hrecord _).2.1 hinside, (hrecord _).2.2 hbeyond, hplain _ (nested 126).canonical hinside⟩

end DeadDrop.RecordStore
