import DeadDrop.Proofs.Store.RecordStore
import DeadDrop.Proofs.Transcript
import DeadDrop.Service

/-!
# Requests on the service

What can be asked of the service, as data, so that a run of the service is a list of requests. A
request works under one download key at most, its target. How it is answered and what becomes of the
store is decided by what the backend does under that key: where two backends agree there, the two
services answer alike (`Request.agree_respond`), and what a view of the backend shows is kept if the
operations under the target keep it (`Request.keeps_respond`).
-/

namespace DeadDrop.Service

open DeadDrop.Action
open RecordStore (AgreeUnder Related)

variable {σ τ α : Type}

/-- What clients ask for, and the sweep that the service makes on its own. -/
inductive Request where
  | upload (uploadKey : Text) (params : Params)
  | patch (uploadKey path : Text) (params : Params)
  | delete (uploadKey : Text)
  | downloadJson (downloadKey : Text)
  | downloadField (downloadKey path : Text)
  | purge

inductive Reply where
  | written (written : Written)
  | deleted (downloadKey : Text)
  | json (b : Bytes)
  | field (value : Value)
  | purged (count : Nat)

/-- The download key that a request works under: none for a sweep or an invalid upload key. -/
def Request.target? : Request → Option Text
  | .upload uploadKey _ | .patch uploadKey _ _ | .delete uploadKey =>
    (downloadKeyOf uploadKey).toOption
  | .downloadJson downloadKey | .downloadField downloadKey _ =>
    some (Credential.normalizeDownload downloadKey)
  | .purge => none

def sampleUploadKey : Text := List.replicate 64 '0'

def sampleDownloadKey : Text := Hex.encode (Sha256.digest (Text.toUtf8 sampleUploadKey))

theorem toOption_downloadKeyOf_eq_some {uploadKey key : Text}
    (h : (downloadKeyOf uploadKey).toOption = some key) : downloadKeyOf uploadKey = .ok key := by
  cases hkey : downloadKeyOf uploadKey with
  | error reason => simp [hkey, Except.toOption] at h
  | ok found => simpa [hkey, Except.toOption] using h

theorem downloadKeyOf_sample : downloadKeyOf sampleUploadKey = .ok sampleDownloadKey :=
  toOption_downloadKeyOf_eq_some (by decide +kernel)

variable [Backend σ] [Backend τ]

def Request.respond (clock : Clock) : Request → Action (RecordStore σ) Error Reply
  | .upload uploadKey params => do return .written (← Service.upload clock uploadKey params)
  | .patch uploadKey path params => do return .written (← Service.patch clock uploadKey path params)
  | .delete uploadKey => do return .deleted (← Service.delete clock uploadKey)
  | .downloadJson downloadKey => do return .json (← Service.downloadJson clock downloadKey)
  | .downloadField downloadKey path => do
    return .field (← Service.downloadField clock downloadKey path)
  | .purge => do return .purged (← RecordStore.purge clock)

/-- The requests of a run with their answers, from a store on. -/
def requests (run : List (Timed Request)) (s : RecordStore σ) :
    List (Timed Request × Outcome Error Reply) :=
  transcript (fun t => t.call.respond t.clock) run s

/-- Stamps a record with the current time and stores it, as both ways of writing do. -/
def commit (clock : Clock) (key : Text) (change : Moment → Record) :
    Action (RecordStore σ) Error Written := do
  let moment ← now clock
  RecordStore.put clock key (change moment)
  pure { downloadKey := key, record := change moment }

theorem upload_eq (clock : Clock) (uploadKey : Text) (params : Params) :
    (upload clock uploadKey params : Action (RecordStore σ) Error Written) =
      done (.ofExcept (downloadKeyOf uploadKey)) >>= fun key =>
        commit clock key (Record.ofParams params).stamp := rfl

theorem patch_eq (clock : Clock) (uploadKey path : Text) (params : Params) :
    (patch clock uploadKey path params : Action (RecordStore σ) Error Written) =
      done (.ofExcept (downloadKeyOf uploadKey)) >>= fun key =>
        RecordStore.getOrEmpty clock key >>= fun existing =>
          commit clock key (existing.merged path params).stamp := rfl

theorem upload_of_key {uploadKey key : Text} (hkey : downloadKeyOf uploadKey = .ok key)
    (clock : Clock) (params : Params) :
    (upload clock uploadKey params : Action (RecordStore σ) Error Written) =
      commit clock key (Record.ofParams params).stamp := by
  rw [upload_eq, hkey]
  rfl

theorem patch_of_key {uploadKey key : Text} (hkey : downloadKeyOf uploadKey = .ok key)
    (clock : Clock) (path : Text) (params : Params) :
    (patch clock uploadKey path params : Action (RecordStore σ) Error Written) =
      RecordStore.getOrEmpty clock key >>= fun existing =>
        commit clock key (existing.merged path params).stamp := by
  rw [patch_eq, hkey]
  rfl

/-! ### The service on two backends -/

variable {R : σ → τ → Prop} {retention : Nat} {c d : Clock}

omit [Backend σ] [Backend τ] in
theorem agree_downloadKeyOf {Q : RecordStore σ → RecordStore τ → Prop} (uploadKey : Text)
    {a : Text → Action (RecordStore σ) Error α} {b : Text → Action (RecordStore τ) Error α}
    (h : ∀ key, (downloadKeyOf uploadKey).toOption = some key → Agree Q (a key) (b key)) :
    Agree Q (done (.ofExcept (downloadKeyOf uploadKey)) >>= a)
      (done (.ofExcept (downloadKeyOf uploadKey)) >>= b) := by
  cases hkey : downloadKeyOf uploadKey with
  | error reason => exact agree_done Q _
  | ok key => exact h key (by rw [hkey]; rfl)

omit [Backend σ] [Backend τ] in
theorem agree_now (hmoment : c.moment? = d.moment?) (Q : RecordStore σ → RecordStore τ → Prop) :
    Agree Q (now c) (now d) := by
  unfold now
  rw [hmoment]
  cases d.moment? with
  | none => exact agree_done _ _
  | some moment => exact agree_done _ _

theorem agree_commit (hmoment : c.moment? = d.moment?) {key : Text}
    (hkey : AgreeUnder R c d key retention) (change : Moment → Record) :
    Agree (Related R retention) (commit c key change) (commit d key change) :=
  (agree_now hmoment _).bind fun moment =>
    (RecordStore.agree_put hkey (change moment)).bind fun _ => agree_done _ _

theorem Request.agree_respond (request : Request) (hmoment : c.moment? = d.moment?)
    (htarget : ∀ key, request.target? = some key → AgreeUnder R c d key retention)
    (hsweep : request = .purge → Agree R (Backend.sweep c) (Backend.sweep d)) :
    Agree (Related R retention) (request.respond c) (request.respond d) := by
  cases request with
  | upload uploadKey params =>
    refine Agree.bind ?_ fun _ => agree_done _ _
    rw [upload_eq, upload_eq]
    exact agree_downloadKeyOf uploadKey fun key hkey => agree_commit hmoment (htarget key hkey) _
  | patch uploadKey path params =>
    refine Agree.bind ?_ fun _ => agree_done _ _
    rw [patch_eq, patch_eq]
    refine agree_downloadKeyOf uploadKey fun key hkey => ?_
    exact (RecordStore.agree_getOrEmpty (htarget key hkey)).bind fun existing =>
      agree_commit hmoment (htarget key hkey) _
  | delete uploadKey =>
    refine Agree.bind ?_ fun _ => agree_done _ _
    refine agree_downloadKeyOf uploadKey fun key hkey => ?_
    exact (RecordStore.agree_delete (htarget key hkey)).bind fun _ => agree_done _ _
  | downloadJson downloadKey =>
    refine Agree.bind ?_ fun _ => agree_done _ _
    exact RecordStore.agree_getBytes (htarget _ rfl)
  | downloadField downloadKey path =>
    refine Agree.bind ?_ fun _ => agree_done _ _
    refine (RecordStore.agree_get (htarget _ rfl)).bind fun record => ?_
    cases record.field path with
    | ok value => exact agree_done _ _
    | error reason => cases reason <;> exact agree_done _ _
  | purge =>
    refine Agree.bind ?_ fun _ => agree_done _ _
    exact RecordStore.agree_onBackend (hsweep rfl)

/-- A view of the backend that the operations under a request's target keep, or the sweep if the
request is one, is kept by the request, and so is the retention time. -/
theorem Request.keeps_respond {ν : Type} {view : σ → ν} (request : Request) (clock : Clock)
    (htarget : ∀ key, request.target? = some key → Keeps view (Backend.read clock key) ∧
      (∀ value ttl, Keeps view (Backend.write clock key value ttl)) ∧
      Keeps view (Backend.remove clock key))
    (hsweep : request = .purge → Keeps view (Backend.sweep clock)) (s : RecordStore σ) :
    (request.respond clock s).2.retention = s.retention ∧
      view (request.respond clock s).2.backend = view s.backend := by
  have hagree : Agree (Related (Same view (view s.backend)) s.retention) (request.respond clock)
      (request.respond clock) := by
    refine request.agree_respond rfl (fun key hkey => ?_) fun hcall => (hsweep hcall).agree _
    obtain ⟨hread, hwrite, hremove⟩ := htarget key hkey
    exact ⟨hread.agree _, fun value => (hwrite value _).agree _,
      (hremove.agree _).bind fun _ => agree_done _ _⟩
  have hafter := (hagree s s ⟨⟨rfl, rfl⟩, rfl, rfl⟩).2
  exact ⟨hafter.left, hafter.backend.2⟩

/-- No request changes the retention time. -/
theorem Request.retention_respond (request : Request) (clock : Clock) (s : RecordStore σ) :
    (request.respond clock s).2.retention = s.retention :=
  (@Request.keeps_respond σ _ Unit (fun _ => ()) request clock
    (fun _ _ => ⟨fun _ => rfl, fun _ _ _ => rfl, fun _ => rfl⟩) (fun _ _ => rfl) s).1

end DeadDrop.Service
