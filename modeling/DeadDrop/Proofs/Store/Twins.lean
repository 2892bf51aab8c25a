import DeadDrop.Proofs.Store.RecordStore
import DeadDrop.Proofs.Table
import DeadDrop.Record.Json
import DeadDrop.Store.Faulty

/-!
# Stores that differ in secrets

Two stores are twins if they differ only in what a fault must not tell of: in the values that are no
records, and in the wording with which operations fail. They have the same keys, the same expiries and
the same records, and the same operations fail on them.

Every operation of a backend ends alike on twins and leaves twins (`Backend.KeepsTwins`). What a read
gives may differ if it is no record, and any two faults count as alike. The record store makes of the
first a fault as well, so there all values are the same again, and what may differ are two faults of
the server (`Error.Akin`).
-/

namespace DeadDrop

open DeadDrop.Action

/-- The same bytes, or both are no record. -/
def SameRecord (b b' : Bytes) : Prop :=
  b = b' ∨ Record.ofBytes? b = none ∧ Record.ofBytes? b' = none

theorem SameRecord.refl (b : Bytes) : SameRecord b b := .inl rfl

theorem SameRecord.ofBytes?_eq {b b' : Bytes} (h : SameRecord b b') :
    Record.ofBytes? b = Record.ofBytes? b' := by
  rcases h with rfl | ⟨hb, hb'⟩
  · rfl
  · rw [hb, hb']

/-- Two errors are the same, or both are faults of the server. -/
def Error.Akin (e e' : Error) : Prop :=
  e = e' ∨ e.isClientError = false ∧ e'.isClientError = false

theorem Error.Akin.refl (e : Error) : e.Akin e := .inl rfl

/-! ### Backends -/

/-- Any two faults. -/
def StorageFault.Any (_ _ : StorageFault) : Prop := True

/-- The operations of a backend do not tell twins apart. -/
structure Backend.KeepsTwins {σ : Type} [Backend σ] (R : σ → σ → Prop) : Prop where
  read : ∀ clock key, AgreeUpTo R StorageFault.Any (Option.Rel SameRecord)
    (Backend.read clock key) (Backend.read clock key)
  write : ∀ clock key value ttl, AgreeUpTo R StorageFault.Any Eq
    (Backend.write clock key value ttl) (Backend.write clock key value ttl)
  remove : ∀ clock key, AgreeUpTo R StorageFault.Any Eq
    (Backend.remove clock key) (Backend.remove clock key)

structure MemoryEntry.Twins (a b : MemoryEntry) : Prop where
  expiry : a.expiry = b.expiry
  value : SameRecord a.value b.value

theorem MemoryEntry.Twins.refl (entry : MemoryEntry) : entry.Twins entry := ⟨rfl, .refl _⟩

theorem MemoryEntry.Twins.isOver_eq {a b : MemoryEntry} (h : a.Twins b) (now : Nat) :
    a.isOver now = b.isOver now := by
  unfold isOver
  rw [h.expiry]

namespace Memory

def Twins (m m' : Memory) : Prop := m.entries.Matches MemoryEntry.Twins m'.entries

theorem keepsTwins : Backend.KeepsTwins Twins where
  read clock key := by
    intro m m' h
    change Outcome.Alike _ _ (read clock key m).1 (read clock key m').1 ∧
      Twins (read clock key m).2 (read clock key m').2
    unfold read
    rcases h.get?_cases key with ⟨hm, hm'⟩ | ⟨a, b, hm, hm', hab⟩
    · simp only [hm, hm']
      exact ⟨.ok .none, h⟩
    · simp only [hm, hm', hab.isOver_eq]
      split
      · exact ⟨.ok .none, h.erase key⟩
      · exact ⟨.ok (.some hab.value), h⟩
  write clock key value ttl := by
    intro m m' h
    change Outcome.Alike _ _ (write clock key value ttl m).1 (write clock key value ttl m').1 ∧
      Twins (write clock key value ttl m).2 (write clock key value ttl m').2
    unfold write
    cases ttl with
    | none => exact ⟨.ok rfl, h.insert key (.refl _)⟩
    | some ttl =>
      simp only
      split
      · exact ⟨.ok rfl, h.insert key (.refl _)⟩
      · exact ⟨.abort, h⟩
  remove _ key := by
    intro m m' h
    exact ⟨.ok (h.contains_eq key), h.erase key⟩

end Memory

/-- Two rows with one expiry, whose values are the same or no records, or two that are too short to
be rows. -/
inductive Row.Twins : Bytes → Bytes → Prop
  | rows {b b' : Bytes} {row row' : Row} (left : Row.decode? b = some row)
      (right : Row.decode? b' = some row') (expiry : row.expiry = row'.expiry)
      (value : SameRecord row.value row'.value) : Row.Twins b b'
  | short {b b' : Bytes} (left : Row.decode? b = none) (right : Row.decode? b' = none) :
    Row.Twins b b'

theorem Row.Twins.refl (b : Bytes) : Row.Twins b b := by
  cases h : Row.decode? b with
  | none => exact .short h h
  | some row => exact .rows h h rfl (.refl _)

namespace Rows

def Twins (r r' : Rows) : Prop := r.table.Matches Row.Twins r'.table

theorem read_twins {r r' : Rows} (h : Twins r r') (clock : Clock) (key : Text) :
    Outcome.Alike StorageFault.Any (Option.Rel SameRecord) (read clock key r).1
        (read clock key r').1 ∧
      Twins (read clock key r).2 (read clock key r').2 := by
  unfold read
  rcases Table.Matches.get?_cases h key with ⟨hr, hr'⟩ | ⟨b, b', hr, hr', hbytes⟩
  · simp only [hr, hr']
    exact ⟨.ok .none, h⟩
  simp only [hr, hr']
  cases hbytes with
  | short left right =>
    simp only [left, right]
    exact ⟨.error trivial, h⟩
  | @rows row row' left right expiry value =>
    have hover : ∀ now, row.isOver now = row'.isOver now := by
      intro now
      unfold Row.isOver
      rw [expiry]
    simp only [left, right, expiry, hover]
    split
    · exact ⟨.ok (.some value), h⟩
    · cases Row.millisOf clock with
      | error fault => exact ⟨.error trivial, h⟩
      | ok now =>
        simp only
        split
        · exact ⟨.ok .none, h.erase key⟩
        · exact ⟨.ok (.some value), h⟩

theorem keepsTwins : Backend.KeepsTwins Twins where
  read clock key := fun _ _ h => read_twins h clock key
  write clock key value ttl := by
    intro r r' h
    change Outcome.Alike _ _ (write clock key value ttl r).1 (write clock key value ttl r').1 ∧
      Twins (write clock key value ttl r).2 (write clock key value ttl r').2
    unfold write
    simp only
    split
    · exact ⟨.error trivial, h⟩
    · exact ⟨.ok rfl, h.insert key (.refl _)⟩
  remove _ key := by
    intro r r' h
    exact ⟨.ok (h.contains_eq key), h.erase key⟩

end Rows

namespace Faulty

variable {σ α β : Type} {R : σ → σ → Prop}

/-- Whether an operation is switched off. -/
def isOff (f : Faulty σ) (operation : BackendOperation) : Bool :=
  f.off.any fun entry => decide (entry.1 = operation)

/-- Twins inside, of which the same operations are switched off, for whatever reasons. -/
structure Twins (R : σ → σ → Prop) (f f' : Faulty σ) : Prop where
  inner : R f.inner f'.inner
  off : ∀ operation, f.isOff operation = f'.isOff operation

theorem guarded_of_off {f : Faulty σ} {operation : BackendOperation}
    (h : f.isOff operation = true) (action : Action σ StorageFault α) :
    ∃ reason, guarded operation action f = (.error (.refused reason), f) := by
  have hfind : (f.off.find? fun entry => decide (entry.1 = operation)).isSome = true := by
    rw [List.find?_isSome]
    exact List.any_eq_true.1 h
  obtain ⟨entry, hentry⟩ := Option.isSome_iff_exists.1 hfind
  exact ⟨entry.2, by rw [guarded, hentry]⟩

theorem guarded_of_on {f : Faulty σ} {operation : BackendOperation}
    (h : f.isOff operation = false) (action : Action σ StorageFault α) :
    guarded operation action f = ((action f.inner).1, { f with inner := (action f.inner).2 }) := by
  have hfind : (f.off.find? fun entry => decide (entry.1 = operation)) = none := by
    rw [List.find?_eq_none]
    exact List.any_eq_false.1 h
  rw [guarded, hfind]

theorem alike_guarded {P : α → β → Prop} {a : Action σ StorageFault α}
    {b : Action σ StorageFault β} (h : AgreeUpTo R StorageFault.Any P a b)
    (operation : BackendOperation) :
    AgreeUpTo (Twins R) StorageFault.Any P (guarded operation a) (guarded operation b) := by
  intro f f' hf
  cases hoff : f'.isOff operation with
  | true =>
    obtain ⟨reason, hguarded⟩ := guarded_of_off ((hf.off operation).trans hoff) a
    obtain ⟨reason', hguarded'⟩ := guarded_of_off hoff b
    rw [hguarded, hguarded']
    exact ⟨.error trivial, hf⟩
  | false =>
    obtain ⟨houtcome, hinner⟩ := h f.inner f'.inner hf.inner
    rw [guarded_of_on ((hf.off operation).trans hoff), guarded_of_on hoff]
    exact ⟨houtcome, hinner, hf.off⟩

theorem keepsTwins [Backend σ] (h : Backend.KeepsTwins R) : Backend.KeepsTwins (Twins R) where
  read clock key := alike_guarded (h.read clock key) .read
  write clock key value ttl := alike_guarded (h.write clock key value ttl) .write
  remove clock key := alike_guarded (h.remove clock key) .remove

end Faulty

namespace Storage

variable {α β : Type}

/-- Twins on one kind of backend. -/
inductive Twins : Storage → Storage → Prop
  | memory {m m' : Memory} (h : m.Twins m') : Twins (.memory m) (.memory m')
  | rows {r r' : Rows} (h : r.Twins r') : Twins (.rows r) (.rows r')
  | faulty {f f' : Faulty Memory} (h : Faulty.Twins Memory.Twins f f') :
    Twins (.faulty f) (.faulty f')

theorem alike_dispatch {P : α → β → Prop} {a : Action Memory StorageFault α}
    {a' : Action Memory StorageFault β} {b : Action Rows StorageFault α}
    {b' : Action Rows StorageFault β} {c : Action (Faulty Memory) StorageFault α}
    {c' : Action (Faulty Memory) StorageFault β}
    (ha : AgreeUpTo Memory.Twins StorageFault.Any P a a')
    (hb : AgreeUpTo Rows.Twins StorageFault.Any P b b')
    (hc : AgreeUpTo (Faulty.Twins Memory.Twins) StorageFault.Any P c c') :
    AgreeUpTo Twins StorageFault.Any P (dispatch a b c) (dispatch a' b' c') := by
  intro s t hst
  cases hst with
  | memory h => exact ⟨(ha _ _ h).1, .memory (ha _ _ h).2⟩
  | rows h => exact ⟨(hb _ _ h).1, .rows (hb _ _ h).2⟩
  | faulty h => exact ⟨(hc _ _ h).1, .faulty (hc _ _ h).2⟩

theorem keepsTwins : Backend.KeepsTwins Twins :=
  have hfaulty := Faulty.keepsTwins Memory.keepsTwins
  { read := fun clock key => alike_dispatch (Memory.keepsTwins.read clock key)
      (Rows.keepsTwins.read clock key) (hfaulty.read clock key)
    write := fun clock key value ttl => alike_dispatch (Memory.keepsTwins.write clock key value ttl)
      (Rows.keepsTwins.write clock key value ttl) (hfaulty.write clock key value ttl)
    remove := fun clock key => alike_dispatch (Memory.keepsTwins.remove clock key)
      (Rows.keepsTwins.remove clock key) (hfaulty.remove clock key) }

end Storage

/-! ### The record store -/

namespace RecordStore

variable {σ α β : Type} {R : σ → σ → Prop} {retention : Nat}

theorem alike_onBackend {P : α → β → Prop} {a : Action σ StorageFault α}
    {b : Action σ StorageFault β} (h : AgreeUpTo R StorageFault.Any P a b) :
    AgreeUpTo (Related R retention) Error.Akin P (onBackend a) (onBackend b) := by
  intro s t hst
  obtain ⟨houtcome, hstate⟩ := h s.backend t.backend hst.backend
  refine ⟨?_, hstate, hst.left, hst.right⟩
  unfold onBackend
  generalize (a s.backend).1 = o at houtcome ⊢
  generalize (b t.backend).1 = o' at houtcome ⊢
  cases houtcome with
  | ok values => exact .ok values
  | error errors => exact .error (.inr ⟨rfl, rfl⟩)
  | abort => exact .abort

variable [Backend σ] (hR : Backend.KeepsTwins R) (clock : Clock) (key : Text)
include hR

theorem alike_put (record : Record) :
    AgreeUpTo (Related R retention) Error.Akin Eq (put clock key record) (put clock key record) := by
  intro s t hst
  unfold put
  rw [hst.left, hst.right]
  exact alike_onBackend (hR.write clock key record.toBytes (some retention)) s t hst

theorem alike_getBytes :
    AgreeUpTo (Related R retention) Error.Akin SameRecord (getBytes clock key)
      (getBytes clock key) := by
  refine (alike_onBackend (hR.read clock key)).bind fun found found' hfound => ?_
  cases hfound with
  | none => exact agreeUpTo_done (.error (.refl _))
  | some hbytes => exact agreeUpTo_done (.ok hbytes)

/-- What is no record is a fault, whatever else it is. -/
theorem alike_get :
    AgreeUpTo (Related R retention) Error.Akin Eq (get clock key) (get clock key) := by
  refine (alike_getBytes hR clock key).bind fun b b' hbytes => ?_
  rw [← hbytes.ofBytes?_eq]
  cases Record.ofBytes? b with
  | some record => exact agreeUpTo_done (.ok rfl)
  | none => exact agreeUpTo_done (.error (.inr ⟨rfl, rfl⟩))

theorem alike_getOrEmpty :
    AgreeUpTo (Related R retention) Error.Akin Eq (getOrEmpty clock key) (getOrEmpty clock key) := by
  intro s t hst
  obtain ⟨houtcome, hstate⟩ := alike_get hR clock key s t hst
  rw [getOrEmpty_eq, getOrEmpty_eq]
  refine ⟨?_, hstate⟩
  generalize (get clock key s).1 = o at houtcome ⊢
  generalize (get clock key t).1 = o' at houtcome ⊢
  cases houtcome with
  | ok values => exact .ok values
  | @error e e' errors =>
    rcases errors with rfl | ⟨hfault, hfault'⟩
    · exact Outcome.alike_refl Error.Akin.refl (fun _ => rfl) _
    · -- a record that is not found is no fault
      have hkept : ∀ {e : Error}, e.isClientError = false →
          orEmpty (.error e) = .error e := by
        intro e he
        cases e with
        | notFound => cases he
        | _ => rfl
      rw [hkept hfault, hkept hfault']
      exact .error (.inr ⟨hfault, hfault'⟩)
  | abort => exact .abort

theorem alike_delete :
    AgreeUpTo (Related R retention) Error.Akin Eq (delete clock key) (delete clock key) :=
  (alike_onBackend (hR.remove clock key)).bind fun _ _ _ => agreeUpTo_done (.ok rfl)

end RecordStore

end DeadDrop
