import DeadDrop.Proofs.Action
import DeadDrop.Store.RecordStore

/-!
# The record store on its backend

Every operation of the record store is one call on the backend, whose outcome is turned into an
answer. The first part says so for each of them. The second part compares two stores, each on a
backend of its own: they answer alike where the backends do.
-/

namespace DeadDrop

open DeadDrop.Action

variable {σ τ α : Type}

namespace RecordStore

def readBytes (o : Outcome StorageFault (Option Bytes)) : Outcome Error Bytes :=
  (o.mapError fun fault => .storage fault.message).bind fun found =>
    match found with
    | some b => .ok b
    | none => .error .recordNotFound

def decoded (b : Bytes) : Outcome Error Record :=
  match Record.ofBytes? b with
  | some record => .ok record
  | none => .error (undecodable b)

def orEmpty : Outcome Error Record → Outcome Error Record
  | .error (.notFound _) => .ok .empty
  | o => o

section Spec

variable [Backend σ] (clock : Clock) (key : Text) (s : RecordStore σ)

theorem put_eq (record : Record) :
    put clock key record s =
      ((Backend.write clock key record.toBytes (some s.retention) s.backend).1.mapError
          fun fault => .storage fault.message,
        { s with
          backend := (Backend.write clock key record.toBytes (some s.retention) s.backend).2 }) :=
  rfl

theorem getBytes_eq :
    getBytes clock key s = (readBytes (Backend.read clock key s.backend).1,
      { s with backend := (Backend.read clock key s.backend).2 }) := by
  refine bind_done (fun found => ?_) s
  cases found <;> rfl

theorem get_eq :
    get clock key s = ((readBytes (Backend.read clock key s.backend).1).bind decoded,
      { s with backend := (Backend.read clock key s.backend).2 }) := by
  have hget : get clock key s =
      ((getBytes clock key s).1.bind decoded, (getBytes clock key s).2) := by
    refine bind_done (fun b => ?_) s
    unfold decoded
    cases Record.ofBytes? b <;> rfl
  rw [hget, getBytes_eq]

theorem getOrEmpty_eq :
    getOrEmpty clock key s = (orEmpty (get clock key s).1, (get clock key s).2) := by
  unfold getOrEmpty
  rcases get clock key s with ⟨o, s'⟩
  cases o with
  | ok record => rfl
  | error reason => cases reason <;> rfl
  | abort => rfl

theorem delete_eq :
    (delete clock key : Action (RecordStore σ) Error Unit) =
      onBackend (Backend.remove clock key >>= fun _ => pure ()) := by
  funext s
  have hdelete : delete clock key s =
      ((onBackend (Backend.remove clock key) s).1.bind fun _ => .ok (),
        (onBackend (Backend.remove clock key) s).2) :=
    bind_done (fun _ => rfl) s
  have hremove : (Backend.remove clock key >>= fun _ => pure ()) s.backend =
      ((Backend.remove clock key s.backend).1.bind fun _ => .ok (),
        (Backend.remove clock key s.backend).2) :=
    bind_done (fun _ => rfl) s.backend
  rw [hdelete, onBackend, onBackend, hremove]
  cases (Backend.remove clock key s.backend).1 <;> rfl

end Spec

/-! ### The record store on two backends -/

/-- Two stores with the same retention time on related backends. -/
structure Related (R : σ → τ → Prop) (retention : Nat) (s : RecordStore σ) (t : RecordStore τ) :
    Prop where
  backend : R s.backend t.backend
  left : s.retention = retention
  right : t.retention = retention

variable {R : σ → τ → Prop} {retention : Nat} {c d : Clock} {key : Text}

theorem agree_onBackend {a : Action σ StorageFault α} {b : Action τ StorageFault α}
    (h : Agree R a b) : Agree (Related R retention) (onBackend a) (onBackend b) := by
  intro s t hst
  obtain ⟨houtcome, hstate⟩ := h s.backend t.backend hst.backend
  refine ⟨?_, hstate, hst.left, hst.right⟩
  simp only [onBackend, houtcome]

variable [Backend σ] [Backend τ]

/-- Two backends treat a key alike: they read it alike, keep a value under it alike for the
retention time, and a removal leaves them alike, whatever it tells about the entry. -/
structure AgreeUnder (R : σ → τ → Prop) (c d : Clock) (key : Text) (retention : Nat) : Prop where
  read : Agree R (Backend.read c key) (Backend.read d key)
  write : ∀ value, Agree R (Backend.write c key value (some retention))
    (Backend.write d key value (some retention))
  remove : Agree R (Backend.remove c key >>= fun _ => pure ())
    (Backend.remove d key >>= fun _ => pure ())

theorem agree_put (h : AgreeUnder R c d key retention) (record : Record) :
    Agree (Related R retention) (put c key record) (put d key record) := by
  intro s t hst
  unfold put
  rw [hst.left, hst.right]
  exact agree_onBackend (h.write record.toBytes) s t hst

theorem agree_getBytes (h : AgreeUnder R c d key retention) :
    Agree (Related R retention) (getBytes c key) (getBytes d key) := by
  refine (agree_onBackend h.read).bind fun found => ?_
  cases found with
  | none => exact agree_done _ _
  | some b => exact agree_done _ _

theorem agree_get (h : AgreeUnder R c d key retention) :
    Agree (Related R retention) (get c key) (get d key) := by
  refine (agree_getBytes h).bind fun b => ?_
  cases Record.ofBytes? b with
  | none => exact agree_done _ _
  | some record => exact agree_done _ _

theorem agree_getOrEmpty (h : AgreeUnder R c d key retention) :
    Agree (Related R retention) (getOrEmpty c key) (getOrEmpty d key) := by
  intro s t hst
  obtain ⟨houtcome, hstate⟩ := agree_get h s t hst
  rw [getOrEmpty_eq, getOrEmpty_eq, houtcome]
  exact ⟨rfl, hstate⟩

theorem agree_delete (h : AgreeUnder R c d key retention) :
    Agree (Related R retention) (delete c key) (delete d key) := by
  rw [delete_eq, delete_eq]
  exact agree_onBackend h.remove

end RecordStore

end DeadDrop
