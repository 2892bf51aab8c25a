import DeadDrop.Proofs.Action
import DeadDrop.Proofs.Credential

/-!
# The errors of the service

A call on a record has four errors: there is no record or no such field in it, the path goes on behind
a leaf, the stored bytes are no record, and the storage fails (`Error.OfRecord`). A call that comes with
an upload key has one more, and it is the first that can come up: the key is refused, and then nothing
has been asked of the storage. A derivation never fails, neither of a key that is accepted nor of one
that is made of as many random bytes as a key has.
-/

namespace DeadDrop

open DeadDrop.Action

/-- The errors of a call on a record. -/
def Error.OfRecord : Error → Prop
  | .notFound _ | .invalidPath _ | .decode _ | .storage _ => True
  | _ => False

/-! ### The record store -/

namespace RecordStore

variable {σ α : Type}

theorem failsOnly_onBackend (action : Action σ StorageFault α) :
    FailsOnly Error.OfRecord (onBackend action) := by
  intro s e h
  rw [onBackend] at h
  cases hfault : (action s.backend).1 with
  | ok value => simp [hfault] at h
  | error fault =>
    rw [hfault, Outcome.mapError_error, Outcome.error.injEq] at h
    subst h
    trivial
  | abort => simp [hfault] at h

variable [Backend σ] (clock : Clock) (key : Text)

theorem failsOnly_put (record : Record) :
    FailsOnly Error.OfRecord (put clock key record : Action (RecordStore σ) Error Unit) :=
  fun s => failsOnly_onBackend _ s

theorem failsOnly_getBytes :
    FailsOnly Error.OfRecord (getBytes clock key : Action (RecordStore σ) Error Bytes) := by
  refine (failsOnly_onBackend _).bind fun found => ?_
  cases found with
  | some b => exact failsOnly_pure b
  | none => exact failsOnly_fail trivial

theorem failsOnly_get :
    FailsOnly Error.OfRecord (get clock key : Action (RecordStore σ) Error Record) := by
  refine (failsOnly_getBytes clock key).bind fun b => ?_
  cases Record.ofBytes? b with
  | some record => exact failsOnly_pure record
  | none => exact failsOnly_fail trivial

theorem failsOnly_getOrEmpty :
    FailsOnly Error.OfRecord (getOrEmpty clock key : Action (RecordStore σ) Error Record) := by
  intro s e h
  unfold getOrEmpty at h
  split at h
  · simp at h
  · exact failsOnly_get clock key s e h

theorem failsOnly_delete :
    FailsOnly Error.OfRecord (delete clock key : Action (RecordStore σ) Error Unit) :=
  (failsOnly_onBackend _).bind fun _ => failsOnly_pure ()

end RecordStore

/-! ### Keys -/

namespace Service

/-- A valid upload key has a download key. -/
theorem exists_downloadKey {uploadKey : Text} (h : Credential.validate uploadKey = .ok ()) :
    ∃ key, downloadKeyOf uploadKey = .ok key := by
  have hderive : ∃ key, Credential.derive uploadKey = .ok key := by
    unfold Credential.validate at h
    split at h
    · rename_i bytes hbytes
      split at h
      · rename_i hlength
        simp only [Credential.derive, hbytes, if_pos hlength]
        exact ⟨_, rfl⟩
      · cases h
    · cases h
  obtain ⟨key, hkey⟩ := hderive
  exact ⟨key, by rw [downloadKeyOf, h]; simp only [hkey]⟩

theorem downloadKeyOf_eq_error_iff {uploadKey : Text} {e : Error} :
    downloadKeyOf uploadKey = .error e ↔
      ∃ cause, Credential.validate uploadKey = .error cause ∧
        e = .invalidCredential cause.message := by
  cases hvalid : Credential.validate uploadKey with
  | error cause => simp [downloadKeyOf, hvalid, eq_comm]
  | ok _ =>
    obtain ⟨key, hkey⟩ := exists_downloadKey hvalid
    simp [hkey]

/-- Random bytes of the right number always make a pair of keys. -/
theorem exists_keyPair {random : Bytes} (h : random.length = Credential.keyBytes) :
    ∃ pair, keyPairOf random = .ok pair := by
  have hderive : ∃ key, Credential.derive (Credential.uploadKeyOf random) = .ok key := by
    have htext : (Credential.untagUpload (Credential.uploadKeyOf random)).lowerCase =
        Hex.encode random := Credential.lowerCase_untag_encode (by decide) random
    simp only [Credential.derive, htext, Hex.decode?_encode, if_pos h]
    exact ⟨_, rfl⟩
  obtain ⟨key, hkey⟩ := hderive
  simp only [keyPairOf, hkey]
  exact ⟨_, rfl⟩

end Service

/-! ### The service -/

/-- The errors of a call that comes with an upload key. -/
def Error.OfWrite (uploadKey : Text) (e : Error) : Prop :=
  e.OfRecord ∨ Service.downloadKeyOf uploadKey = .error e

theorem Error.OfWrite.ofRecord {uploadKey : Text} {e : Error} (h : e.OfWrite uploadKey)
    (hvalid : Credential.validate uploadKey = .ok ()) : e.OfRecord := by
  obtain ⟨key, hkey⟩ := Service.exists_downloadKey hvalid
  rcases h with h | h
  · exact h
  · rw [hkey] at h
    cases h

namespace Service

variable {σ : Type}

theorem failsOnly_downloadKeyOf (uploadKey : Text) :
    FailsOnly (Error.OfWrite uploadKey)
      (done (.ofExcept (downloadKeyOf uploadKey)) : Action (RecordStore σ) Error Text) := by
  apply failsOnly_done
  intro e h
  cases hkey : downloadKeyOf uploadKey with
  | ok key => simp [hkey, Outcome.ofExcept] at h
  | error cause =>
    rw [hkey] at h
    obtain rfl := Outcome.error.inj h
    exact .inr hkey

theorem failsOnly_now (clock : Clock) :
    FailsOnly Error.OfRecord (now clock : Action (RecordStore σ) Error Moment) := by
  unfold now
  cases clock.moment? with
  | none => exact failsOnly_done fun e h => by simp at h
  | some moment => exact failsOnly_pure moment

variable [Backend σ] (clock : Clock)

theorem failsOnly_upload (uploadKey : Text) (params : Params) :
    FailsOnly (Error.OfWrite uploadKey)
      (upload clock uploadKey params : Action (RecordStore σ) Error Written) := by
  refine (failsOnly_downloadKeyOf uploadKey).bind fun key => ?_
  refine ((failsOnly_now clock).mono fun _ => .inl).bind fun moment => ?_
  refine ((RecordStore.failsOnly_put clock key _).mono fun _ => .inl).bind fun _ => ?_
  exact failsOnly_pure _

theorem failsOnly_patch (uploadKey path : Text) (params : Params) :
    FailsOnly (Error.OfWrite uploadKey)
      (patch clock uploadKey path params : Action (RecordStore σ) Error Written) := by
  refine (failsOnly_downloadKeyOf uploadKey).bind fun key => ?_
  refine ((RecordStore.failsOnly_getOrEmpty clock key).mono fun _ => .inl).bind fun existing => ?_
  refine ((failsOnly_now clock).mono fun _ => .inl).bind fun moment => ?_
  refine ((RecordStore.failsOnly_put clock key _).mono fun _ => .inl).bind fun _ => ?_
  exact failsOnly_pure _

theorem failsOnly_delete (uploadKey : Text) :
    FailsOnly (Error.OfWrite uploadKey)
      (delete clock uploadKey : Action (RecordStore σ) Error Text) := by
  refine (failsOnly_downloadKeyOf uploadKey).bind fun key => ?_
  refine ((RecordStore.failsOnly_delete clock key).mono fun _ => .inl).bind fun _ => ?_
  exact failsOnly_pure key

theorem failsOnly_downloadField (downloadKey path : Text) :
    FailsOnly Error.OfRecord
      (downloadField clock downloadKey path : Action (RecordStore σ) Error Value) := by
  refine (RecordStore.failsOnly_get clock _).bind fun record => ?_
  cases record.field path with
  | ok value => exact failsOnly_pure value
  | error cause => cases cause <;> exact failsOnly_fail trivial

end Service

end DeadDrop
