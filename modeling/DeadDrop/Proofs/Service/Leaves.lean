import DeadDrop.Proofs.Record.Leaves
import DeadDrop.Proofs.Service.Readable
import DeadDrop.Proofs.Store.Contents

/-!
# The leaves of what is stored

Every value that a store holds is a record's JSON, and every leaf of that record was given to a write
or is the stamp of one. So a property of all leaves that are written, and of all stamps, is one of
all leaves that are stored, and of all fields that are read. A patch is the case to watch: it reads
what is stored, keeps some of it and stores it again, and what it reads is what was written, because
JSON is read back as it was.
-/

namespace DeadDrop

open DeadDrop.Action
open Backend (Contents Holds)

variable {σ : Type} [Backend σ] [Contents σ] {p : Text → Prop} {clock : Clock}

namespace RecordStore

/-- All that the store holds are records whose leaves have a property. -/
def Stores (p : Text → Prop) (s : RecordStore σ) : Prop :=
  ∀ b, Holds s.backend b → ∃ r : Record, b = r.toBytes ∧ r.AllLeaves p

theorem ensures_getBytes (key : Text) :
    Ensures (Stores p) (fun b => ∃ r : Record, b = r.toBytes ∧ r.AllLeaves p)
      (getBytes clock key : Action (RecordStore σ) Error Bytes) := by
  intro s hstores
  rw [getBytes_eq]
  refine ⟨fun b hb => hstores b (Contents.after_read hb), fun b hb => hstores b ?_⟩
  have hread : (Backend.read clock key s.backend).1 = .ok (some b) := by
    change readBytes (Backend.read clock key s.backend).1 = _ at hb
    cases houtcome : (Backend.read clock key s.backend).1 with
    | ok found =>
      rw [houtcome] at hb
      cases found with
      | none => cases hb
      | some found => exact Outcome.ok.inj hb ▸ rfl
    | error fault =>
      rw [houtcome] at hb
      cases hb
    | abort =>
      rw [houtcome] at hb
      cases hb
  exact Contents.of_read hread

theorem ensures_get (key : Text) :
    Ensures (Stores p) (Record.AllLeaves p)
      (get clock key : Action (RecordStore σ) Error Record) := by
  refine (ensures_getBytes key).bind fun b hb => ?_
  obtain ⟨r, rfl, hr⟩ := hb
  rw [Record.ofBytes?_toBytes]
  split
  · rename_i record hrecord
    split at hrecord
    · exact ensures_pure (Option.some.inj hrecord ▸ hr)
    · cases hrecord
  · exact ensures_fail _

theorem ensures_getOrEmpty (key : Text) :
    Ensures (Stores p) (Record.AllLeaves p)
      (getOrEmpty clock key : Action (RecordStore σ) Error Record) := by
  intro s hstores
  obtain ⟨hkept, hvalue⟩ := ensures_get key s hstores
  rw [getOrEmpty_eq]
  refine ⟨hkept, fun record hrecord => ?_⟩
  rcases orEmpty_eq_ok hrecord with hget | rfl
  · exact hvalue record hget
  · exact Record.allLeaves_empty

theorem ensures_put (key : Text) {record : Record} (h : record.AllLeaves p) :
    Ensures (Stores p) (fun _ => True)
      (put clock key record : Action (RecordStore σ) Error Unit) := by
  intro s hstores
  rw [put_eq]
  refine ⟨fun b hb => ?_, fun _ _ => trivial⟩
  rcases Contents.after_write hb with rfl | hold
  · exact ⟨record, rfl, h⟩
  · exact hstores b hold

theorem ensures_delete (key : Text) :
    Ensures (Stores p) (fun _ => True)
      (delete clock key : Action (RecordStore σ) Error Unit) := by
  have hremove : Ensures (Stores p) (fun _ => True)
      (onBackend (Backend.remove clock key) : Action (RecordStore σ) Error Bool) :=
    fun _ hstores => ⟨fun b hb => hstores b (Contents.after_remove hb), fun _ _ => trivial⟩
  exact hremove.bind_pure _ fun _ _ => trivial

theorem ensures_purge :
    Ensures (Stores p) (fun _ => True) (purge clock : Action (RecordStore σ) Error Nat) :=
  fun _ hstores => ⟨fun b hb => hstores b (Contents.after_sweep hb), fun _ _ => trivial⟩

end RecordStore

namespace Service

open RecordStore (Stores)

theorem ensures_commit (key : Text) {change : Moment → Record}
    (h : ∀ moment, (change moment).AllLeaves p) :
    Ensures (Stores p) (fun written => written.record.AllLeaves p)
      (commit clock key change : Action (RecordStore σ) Error Written) := by
  have hnow : Ensures (Stores p) (fun _ => True)
      (now clock : Action (RecordStore σ) Error Moment) := by
    unfold now
    cases clock.moment? with
    | none => exact ensures_done fun _ heq => by cases heq
    | some moment => exact ensures_pure trivial
  refine hnow.bind fun moment _ => ?_
  exact (RecordStore.ensures_put key (h moment)).bind_pure _ fun _ _ => h moment

theorem ensures_downloadKeyOf (uploadKey : Text) :
    Ensures (Stores p) (fun _ => True)
      (done (.ofExcept (downloadKeyOf uploadKey)) : Action (RecordStore σ) Error Text) :=
  ensures_done fun _ _ => trivial

theorem ensures_downloadField (downloadKey path : Text) :
    Ensures (Stores p) (Value.AllLeaves p)
      (downloadField clock downloadKey path : Action (RecordStore σ) Error Value) := by
  refine (RecordStore.ensures_get _).bind fun record hrecord => ?_
  cases hfield : record.field path with
  | ok value => exact ensures_pure (hrecord.field hfield)
  | error cause => cases cause <;> exact ensures_fail _

section Write

variable (hstamp : ∀ moment : Moment, p moment.toSecondsText) {params : Params}
  (hparams : ∀ entry ∈ params.entries, p entry.2)

include hstamp hparams

theorem ensures_upload (uploadKey : Text) :
    Ensures (Stores p) (fun written => written.record.AllLeaves p)
      (upload clock uploadKey params : Action (RecordStore σ) Error Written) := by
  rw [upload_eq]
  refine (ensures_downloadKeyOf uploadKey).bind fun key _ => ?_
  exact ensures_commit key fun moment => (Record.allLeaves_ofParams hparams).stamp (hstamp moment)

theorem ensures_patch (uploadKey path : Text) :
    Ensures (Stores p) (fun written => written.record.AllLeaves p)
      (patch clock uploadKey path params : Action (RecordStore σ) Error Written) := by
  rw [patch_eq]
  refine (ensures_downloadKeyOf uploadKey).bind fun key _ => ?_
  refine (RecordStore.ensures_getOrEmpty key).bind fun existing hexisting => ?_
  exact ensures_commit key fun moment => (hexisting.merged path hparams).stamp (hstamp moment)

end Write

/-- What the request writes has a property. -/
def Request.Gives (p : Text → Prop) : Request → Prop
  | .upload _ params | .patch _ _ params => ∀ entry ∈ params.entries, p entry.2
  | _ => True

/-- One request keeps the property of all that is stored. -/
theorem Request.ensures_respond (hstamp : ∀ moment : Moment, p moment.toSecondsText)
    {request : Request} (h : request.Gives p) :
    Ensures (Stores p) (fun _ => True)
      (request.respond clock : Action (RecordStore σ) Error Reply) := by
  cases request with
  | upload uploadKey params =>
    exact (ensures_upload hstamp h uploadKey).bind_pure _ fun _ _ => trivial
  | patch uploadKey path params =>
    exact (ensures_patch hstamp h uploadKey path).bind_pure _ fun _ _ => trivial
  | delete uploadKey =>
    have hdelete : Ensures (Stores p) (fun _ => True)
        (Service.delete clock uploadKey : Action (RecordStore σ) Error Text) :=
      (ensures_downloadKeyOf uploadKey).bind fun key _ =>
        (RecordStore.ensures_delete key).bind_pure _ fun _ _ => trivial
    exact hdelete.bind_pure _ fun _ _ => trivial
  | downloadJson downloadKey =>
    exact (RecordStore.ensures_getBytes _).bind_pure _ fun _ _ => trivial
  | downloadField downloadKey path =>
    exact (ensures_downloadField downloadKey path).bind_pure _ fun _ _ => trivial
  | purge => exact RecordStore.ensures_purge.bind_pure _ fun _ _ => trivial

end Service

end DeadDrop
