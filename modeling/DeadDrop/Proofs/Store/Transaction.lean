import DeadDrop.Proofs.Store.Mirror
import DeadDrop.Proofs.Store.Reclaimed

/-!
# Operations in steps

The engine keeps rows behind transactions, and what a transaction has changed counts only once it
is committed. Two operations take more than one step. A read looks at its row and, if the time of
the row is over, opens a transaction in which it looks once more before it removes the row. A sweep
looks at all rows in one transaction and removes them afterwards, so it may meet a row at which the
clock refuses when it has found others to be over. Each look reads the clock for itself.

Whatever the clock shows from one look to the next, an operation that fails has changed no row, and
an operation under a key has changed no other row (`contained_steps`). Where the clock stands still
during an operation, the steps come to what the operation of the backend does at once
(`perform_eq_steps`), so the same holds of that.
-/

namespace DeadDrop

/-- Whether the time of a row is over at a reading of the clock. It is read only if the row has an
expiry. -/
def Row.isOverAt (clock : Clock) (row : Row) : Except StorageFault Bool :=
  match row.expiry with
  | none => .ok false
  | some expiry => (Row.millisOf clock).map fun now => decide (expiry ≤ now)

/-- The key that a call is about. A sweep is about all of them. -/
def Backend.Call.key? : Backend.Call → Option Text
  | .read key | .write key _ _ | .remove key => some key
  | .sweep => none

namespace Rows

open DeadDrop.Action Backend

variable {α : Type}

/-! ### Transactions -/

/-- Commits what the body has changed if it ends with a value, and drops it otherwise. -/
def transact (body : Action Rows StorageFault α) : Action Rows StorageFault α := fun rows =>
  match body rows with
  | (.ok value, rows') => (.ok value, rows')
  | (o, _) => (o, rows)

/-- Removes the row of a key if a look at it finds that its time is over. -/
def removeIfOver (clock : Clock) (key : Text) : Action Rows StorageFault Unit := fun rows =>
  match rows.table.get? key with
  | none => (.ok (), rows)
  | some b =>
    match Row.decode? b with
    | none =>
      (.error (.refused ("entry too short: ".toList ++ Text.ofNat b.length ++ " bytes".toList)),
        rows)
    | some row =>
      match row.isOverAt clock with
      | .error fault => (.error fault, rows)
      | .ok ended => (.ok (), if ended then ⟨rows.table.erase key⟩ else rows)

def readInSteps (before : Clock) (inside : Text → Clock) (key : Text) :
    Action Rows StorageFault (Option Bytes) := fun rows =>
  match rows.table.get? key with
  | none => (.ok none, rows)
  | some b =>
    match Row.decode? b with
    | none => (.error (.shortRow key b.length), rows)
    | some row =>
      match row.isOverAt before with
      | .error fault => (.error fault, rows)
      | .ok true => (transact (removeIfOver (inside key) key) >>= fun _ => pure none) rows
      | .ok false => (.ok (some row.value), rows)

/-- The keys of the rows whose time is over, in their order. Rows that are too short to read are
passed over; a clock that refuses ends the search. -/
def keysOver (inside : Text → Clock) : List (Text × Bytes) → Except StorageFault (List Text)
  | [] => .ok []
  | (key, b) :: rest =>
    match Row.decode? b with
    | none => keysOver inside rest
    | some row => do
      let ended ← row.isOverAt (inside key)
      let keys ← keysOver inside rest
      pure (if ended then key :: keys else keys)

def removeAll (keys : List Text) (rows : Rows) : Rows :=
  keys.foldl (fun rows key => ⟨rows.table.erase key⟩) rows

def sweepInSteps (inside : Text → Clock) : Action Rows StorageFault Nat :=
  transact fun rows =>
    match keysOver inside rows.table.entries with
    | .error fault => (.error fault, rows)
    | .ok keys => (.ok keys.length, removeAll keys rows)

/-- A call in its steps. The clock may show one time before a transaction and others inside of it,
there one for the row of each key. A write can fail before its transaction only, and a removal not
at all, so these two are one step. -/
def steps (before : Clock) (inside : Text → Clock) : Call → Action Rows StorageFault Reply
  | .read key => do return .value (← readInSteps before inside key)
  | .sweep => do return .swept (← sweepInSteps inside)
  | call => call.perform before

/-! ### One look at a row -/

theorem isOverAt_of_millis {clock : Clock} {now : Nat} (h : Row.millisOf clock = .ok now)
    (row : Row) : row.isOverAt clock = .ok (row.isOver now) := by
  unfold Row.isOverAt Row.isOver
  cases row.expiry with
  | none => rfl
  | some expiry => rw [h]; rfl

theorem exists_of_isOverAt {clock : Clock} {row : Row} (h : row.isOverAt clock = .ok true) :
    ∃ now, Row.millisOf clock = .ok now ∧ row.isOver now = true := by
  cases hnow : Row.millisOf clock with
  | ok now =>
    rw [isOverAt_of_millis hnow] at h
    exact ⟨now, rfl, Except.ok.inj h⟩
  | error fault =>
    unfold Row.isOverAt at h
    cases hexpiry : row.expiry <;> simp [hexpiry, hnow, Except.map] at h

/-- The bytes under a key are a row whose time is over. -/
def Over (clock : Clock) (key : Text) (rows : Rows) : Prop :=
  ∃ b now, rows.table.get? key = some b ∧ Row.millisOf clock = .ok now ∧ isOver now b = true

/-! ### What steps do -/

theorem transact_of_ok {body : Action Rows StorageFault α} {rows rows' : Rows} {value : α}
    (h : body rows = (.ok value, rows')) : transact body rows = (.ok value, rows') := by
  simp only [transact, h]

theorem transact_of_kept {body : Action Rows StorageFault α} {rows : Rows}
    {o : Outcome StorageFault α} (h : body rows = (o, rows)) : transact body rows = (o, rows) := by
  cases o <;> simp only [transact, h]

theorem failsWithin_transact (body : Action Rows StorageFault α) :
    FailsWithin (fun rows rows' => rows' = rows) (transact body) := by
  intro rows hfails
  unfold transact at hfails ⊢
  rcases h : body rows with ⟨o, rows'⟩
  cases o with
  | ok value =>
    simp only [h] at hfails
    exact absurd rfl (hfails value)
  | error fault => rfl
  | abort => rfl

/-- A look removes the row, or nothing is changed. -/
theorem removeIfOver_cases (clock : Clock) (key : Text) (rows : Rows) :
    (∃ o, removeIfOver clock key rows = (o, rows)) ∨
      Over clock key rows ∧ removeIfOver clock key rows = (.ok (), ⟨rows.table.erase key⟩) := by
  unfold removeIfOver
  cases hbytes : rows.table.get? key with
  | none => exact .inl ⟨_, rfl⟩
  | some b =>
    cases hrow : Row.decode? b with
    | none => exact .inl ⟨_, by simp only [hrow]; rfl⟩
    | some row =>
      simp only [hrow]
      cases hlook : row.isOverAt clock with
      | error fault => exact .inl ⟨_, rfl⟩
      | ok ended =>
        cases ended with
        | false => exact .inl ⟨_, rfl⟩
        | true =>
          obtain ⟨now, hnow, hover⟩ := exists_of_isOverAt hlook
          have hbytesOver : isOver now b = true := by rw [isOver, hrow]; exact hover
          exact .inr ⟨⟨b, now, hbytes, hnow, hbytesOver⟩, rfl⟩

theorem readInSteps_cases (before : Clock) (inside : Text → Clock) (key : Text) (rows : Rows) :
    (∃ o, readInSteps before inside key rows = (o, rows)) ∨
      Over (inside key) key rows ∧
        readInSteps before inside key rows = (.ok none, ⟨rows.table.erase key⟩) := by
  unfold readInSteps
  cases hbytes : rows.table.get? key with
  | none => exact .inl ⟨_, rfl⟩
  | some b =>
    cases hrow : Row.decode? b with
    | none => exact .inl ⟨_, by simp only [hrow]; rfl⟩
    | some row =>
      simp only [hrow]
      cases hlook : row.isOverAt before with
      | error fault => exact .inl ⟨_, rfl⟩
      | ok ended =>
        cases ended with
        | false => exact .inl ⟨_, rfl⟩
        | true =>
          simp only
          rw [bind_pure_apply]
          rcases removeIfOver_cases (inside key) key rows with ⟨o, hkept⟩ | ⟨hover, hremoved⟩
          · exact .inl ⟨_, by rw [transact_of_kept hkept]⟩
          · exact .inr ⟨hover, by rw [transact_of_ok hremoved]; rfl⟩

theorem get?_removeAll (keys : List Text) (key : Text) (rows : Rows) :
    (removeAll keys rows).table.get? key =
      if key ∈ keys then none else rows.table.get? key := by
  induction keys generalizing rows with
  | nil => rfl
  | cons first keys ih =>
    rw [removeAll, List.foldl_cons]
    refine (ih _).trans ?_
    rw [Table.get?_erase]
    by_cases hkey : key = first
    · simp [hkey]
    · simp [hkey]

/-! ### Steps at one time -/

theorem read_eq_steps (clock : Clock) (key : Text) :
    read clock key = readInSteps clock (fun _ => clock) key := by
  funext rows
  unfold read readInSteps
  cases hbytes : rows.table.get? key with
  | none => rfl
  | some b =>
    cases hrow : Row.decode? b with
    | none => simp only [hrow]
    | some row =>
      simp only [hrow]
      cases hexpiry : row.expiry with
      | none => simp [Row.isOverAt, hexpiry]
      | some expiry =>
        cases hnow : Row.millisOf clock with
        | error fault => simp [Row.isOverAt, hexpiry, hnow, Except.map]
        | ok now =>
          have hlook := isOverAt_of_millis hnow row
          cases hover : row.isOver now with
          | false => simp [hlook, hover]
          | true =>
            -- the second look finds what the first one has found
            have hremoved : transact (removeIfOver clock key) rows =
                (.ok (), ⟨rows.table.erase key⟩) := by
              apply transact_of_ok
              simp [removeIfOver, hbytes, hrow, hlook, hover]
            simp only [hlook, hover, bind_of_ok hremoved]
            rfl

theorem keysOver_of_millis {clock : Clock} {now : Nat} (h : Row.millisOf clock = .ok now)
    (entries : List (Text × Bytes)) :
    keysOver (fun _ => clock) entries =
      .ok ((entries.filter fun entry => isOver now entry.2).map Prod.fst) := by
  induction entries with
  | nil => rfl
  | cons entry rest ih =>
    obtain ⟨key, b⟩ := entry
    rw [keysOver, List.filter_cons]
    cases hrow : Row.decode? b with
    | none => simp [isOver, hrow, ih]
    | some row =>
      simp only [isOver, hrow, isOverAt_of_millis h, ih]
      cases row.isOver now <;> rfl

/-- A clock that refuses ends the search at the first row that has an expiry. -/
theorem keysOver_of_error {clock : Clock} {fault : StorageFault}
    (h : Row.millisOf clock = .error fault) (entries : List (Text × Bytes)) :
    keysOver (fun _ => clock) entries =
      if entries.any (fun entry => mayExpire entry.2) then .error fault else .ok [] := by
  induction entries with
  | nil => rfl
  | cons entry rest ih =>
    obtain ⟨key, b⟩ := entry
    cases hrow : Row.decode? b with
    | none =>
      have hmay : mayExpire b = false := by rw [mayExpire, hrow]
      simp only [keysOver, hrow, List.any_cons, hmay, Bool.false_or, ih]
    | some row =>
      cases hexpiry : row.expiry with
      | none =>
        have hmay : mayExpire b = false := by simp [mayExpire, hrow, hexpiry]
        have hlook : row.isOverAt clock = .ok false := by simp [Row.isOverAt, hexpiry]
        simp only [keysOver, hrow, List.any_cons, hmay, Bool.false_or, ih, hlook]
        cases rest.any fun entry => mayExpire entry.2 <;> rfl
      | some expiry =>
        have hmay : mayExpire b = true := by simp [mayExpire, hrow, hexpiry]
        have hlook : row.isOverAt clock = .error fault := by
          simp [Row.isOverAt, hexpiry, h, Except.map]
        simp only [keysOver, hrow, List.any_cons, hmay, Bool.true_or, hlook]
        rfl

/-- Removing the rows that were found one by one leaves the others. -/
theorem removeAll_over (now : Nat) (rows : Rows) :
    removeAll ((rows.table.entries.filter fun entry => isOver now entry.2).map Prod.fst) rows =
      ⟨rows.table.filter fun _ b => !isOver now b⟩ := by
  refine congrArg Rows.mk (Table.ext_of_get? fun key => ?_ : (removeAll _ rows).table = _)
  rw [get?_removeAll, Table.get?_filter]
  have hfound : key ∈ (rows.table.entries.filter fun entry => isOver now entry.2).map Prod.fst ↔
      ∃ b, rows.table.get? key = some b ∧ isOver now b = true := by
    simp [Table.get?_eq_some_iff]
  simp only [hfound]
  cases rows.table.get? key with
  | none => simp
  | some b => cases hover : isOver now b <;> simp [Option.filter_some, hover]

theorem sweep_eq_steps (clock : Clock) : sweep clock = sweepInSteps fun _ => clock := by
  funext rows
  cases hnow : Row.millisOf clock with
  | error fault =>
    simp only [sweep, sweepInSteps, transact, keysOver_of_error hnow, hnow]
    split <;> rfl
  | ok now =>
    have hcount : rows.table.size - (rows.table.filter fun _ b => !isOver now b).size =
        ((rows.table.entries.filter fun entry => isOver now entry.2).map Prod.fst).length := by
      rw [Table.size_sub_size_filter, List.length_map]
      simp [Table.size, Table.filter]
    rw [sweep_eq hnow, sweepInSteps, hcount, ← removeAll_over]
    exact (transact_of_ok (by rw [keysOver_of_millis hnow])).symm

theorem perform_eq_steps (clock : Clock) (call : Call) :
    call.perform clock = steps clock (fun _ => clock) call := by
  cases call with
  | read key =>
    rw [steps, ← read_eq_steps]
    rfl
  | sweep =>
    rw [steps, ← sweep_eq_steps]
    rfl
  | write key value ttl => rfl
  | remove key => rfl

/-! ### How far a call goes -/

/-- How far a call goes on a table of rows: it leaves all of it unless it ends with a reply, it
leaves the rows of other keys, and a read removes its own row at most, and only if its time is over
when the transaction looks at it. -/
structure Contained (inside : Text → Clock) (call : Call) (rows : Rows)
    (result : Outcome StorageFault Reply × Rows) : Prop where
  failed : (∀ reply, result.1 ≠ .ok reply) → result.2 = rows
  others : ∀ key, call.key? = some key → ∀ other, other ≠ key →
    result.2.table.get? other = rows.table.get? other
  read : ∀ key, call = .read key →
    result.2 = rows ∨ Over (inside key) key rows ∧ result.2 = ⟨rows.table.erase key⟩

theorem get?_erase_of_ne {key other : Text} (h : other ≠ key) (rows : Rows) :
    (rows.table.erase key).get? other = rows.table.get? other := by
  rw [Table.get?_erase, if_neg h]

theorem contained_read (before : Clock) (inside : Text → Clock) (key : Text) (rows : Rows) :
    Contained inside (.read key) rows (steps before inside (.read key) rows) := by
  have hsteps : steps before inside (.read key) rows =
      ((readInSteps before inside key rows).1.map Reply.value,
        (readInSteps before inside key rows).2) := bind_pure_apply _ rows
  rw [hsteps]
  rcases readInSteps_cases before inside key rows with ⟨o, hkept⟩ | ⟨hover, hremoved⟩
  · rw [hkept]
    exact ⟨fun _ => rfl, fun _ _ _ _ => rfl, fun _ _ => .inl rfl⟩
  · rw [hremoved]
    refine ⟨fun hfails => absurd rfl (hfails _), ?_, ?_⟩
    · rintro _ ⟨⟩ other hother
      exact get?_erase_of_ne hother rows
    · rintro _ ⟨⟩
      exact .inr ⟨hover, rfl⟩

theorem contained_sweep (before : Clock) (inside : Text → Clock) (rows : Rows) :
    Contained inside .sweep rows (steps before inside .sweep rows) where
  failed := (failsWithin_transact _).bind_pure Reply.swept rows
  others _ hkey := by cases hkey
  read _ hcall := by cases hcall

theorem contained_write (clock : Clock) (inside : Text → Clock) (key : Text) (value : Bytes)
    (ttl : Option Nat) (rows : Rows) :
    Contained inside (.write key value ttl) rows
      ((Call.write key value ttl).perform clock rows) := by
  have hperform : (Call.write key value ttl).perform clock rows =
      ((write clock key value ttl rows).1.map fun _ => Reply.written,
        (write clock key value ttl rows).2) := bind_pure_apply _ rows
  rw [hperform]
  unfold write
  simp only
  split
  · exact ⟨fun _ => rfl, fun _ _ _ _ => rfl, fun _ hcall => by cases hcall⟩
  · refine ⟨fun hfails => absurd rfl (hfails _), ?_, fun _ hcall => by cases hcall⟩
    rintro _ ⟨⟩ other hother
    exact (Table.get?_insert ..).trans (if_neg hother)

theorem contained_remove (clock : Clock) (inside : Text → Clock) (key : Text) (rows : Rows) :
    Contained inside (.remove key) rows ((Call.remove key).perform clock rows) where
  failed hfails := absurd rfl (hfails _)
  others := by
    rintro _ ⟨⟩ other hother
    exact get?_erase_of_ne hother rows
  read _ hcall := by cases hcall

/-- In its steps a call is contained whatever the clock shows at each of them. -/
theorem contained_steps (before : Clock) (inside : Text → Clock) (call : Call) (rows : Rows) :
    Contained inside call rows (steps before inside call rows) := by
  cases call with
  | read key => exact contained_read before inside key rows
  | write key value ttl => exact contained_write before inside key value ttl rows
  | remove key => exact contained_remove before inside key rows
  | sweep => exact contained_sweep before inside rows

/-- **Calls on rows are contained.** Whatever the rows are and whatever the clock shows, a call that
fails leaves every row as it was, a call under a key leaves the rows of all others, and a read
removes its own row at most, if the time of the row is over. -/
theorem calls_contained (clock : Clock) (call : Call) (rows : Rows) :
    Contained (fun _ => clock) call rows (call.perform clock rows) := by
  rw [perform_eq_steps]
  exact contained_steps clock _ call rows

/-- A row that expires at the first second of 1970, one that is too short to be read, and one that
is kept for good. -/
def sampleRows : Rows :=
  ((empty.put ['a'] (Row.encode ⟨[1], some 1000⟩)).put ['b'] [0, 1]).put ['c']
    (Row.encode (.forGood [2]))

/-- Before 1970 a sweep fails and leaves the rows. Two seconds later a read of the first row removes
it and leaves the other two, and a read of the second row fails. -/
theorem calls_contained_sample :
    (Call.sweep.perform ⟨-1, 0⟩ sampleRows).1 = .error .clockBeforeEpoch ∧
      (Call.sweep.perform ⟨-1, 0⟩ sampleRows).2 = sampleRows ∧
      ((Call.read ['a']).perform ⟨2000000000, 0⟩ sampleRows).2.table.get? ['a'] = none ∧
      ((Call.read ['a']).perform ⟨2000000000, 0⟩ sampleRows).2.table.get? ['b'] = some [0, 1] ∧
      ((Call.read ['b']).perform ⟨2000000000, 0⟩ sampleRows).1 = .error (.shortRow ['b'] 2) ∧
      ((Call.read ['b']).perform ⟨2000000000, 0⟩ sampleRows).2 = sampleRows := by
  have hrefused : (Call.sweep.perform ⟨-1, 0⟩ sampleRows).1 = .error .clockBeforeEpoch := by
    decide +kernel
  have hshort : ((Call.read ['b']).perform ⟨2000000000, 0⟩ sampleRows).1 =
      .error (.shortRow ['b'] 2) := by decide +kernel
  refine ⟨hrefused, ?_, by decide +kernel, ?_, hshort, ?_⟩
  · exact (calls_contained ⟨-1, 0⟩ .sweep sampleRows).failed fun reply h => by
      rw [hrefused] at h
      cases h
  · exact (calls_contained ⟨2000000000, 0⟩ (.read ['a']) sampleRows).others ['a'] rfl ['b']
      (by decide)
  · exact (calls_contained ⟨2000000000, 0⟩ (.read ['b']) sampleRows).failed fun reply h => by
      rw [hshort] at h
      cases h

end Rows

end DeadDrop
