import DeadDrop.Proofs.Credential
import DeadDrop.Proofs.Record.Field
import DeadDrop.Proofs.Service.Isolation
import DeadDrop.Proofs.Service.Readable

/-!
# How long a record can be read

What a write has put under a download key is read there until its time is over, whatever else the
service is asked for in between: only a request that writes or deletes the record is seen by a later
read of its key (`Service.shows_respond`). The view of what is live tells this of the requests under other
keys, and a read under the key itself leaves what is live as well.

Both ways of writing put the same kind of record in place, a merge with a stamp; an upload begins
with the empty record (`Wrote`). So there is one lemma about the fields that can be downloaded after
a write.
-/

namespace DeadDrop

open DeadDrop.Action Backend

/-! ### Backends -/

/-- A view of what is live, and the times between which a written value lasts. -/
structure Backend.LastingView {σ β : Type} [Backend σ] (live : Clock → Text → σ → β)
    (readable : Clock → Prop) (lasts : Clock → Nat → Clock → Prop) : Prop
    extends LiveView live readable where
  readable_of_lasts : ∀ {clock later : Clock} {ttl : Nat}, lasts clock ttl later → readable later
  read_of_lasts : ∀ {clock later : Clock} {key : Text} {value : Bytes} {ttl : Nat} {s s' : σ},
    Backend.write clock key value (some ttl) s = (.ok (), s') → lasts clock ttl later →
    Backend.read later key s' = (.ok (some value), s')

theorem Memory.lastingView : LastingView Memory.live (fun _ => True) Memory.Lasts where
  toLiveView := Memory.liveView
  readable_of_lasts _ := trivial
  read_of_lasts := Memory.read_of_lasts

theorem Rows.lastingView : LastingView Rows.live Rows.Readable Rows.Lasts where
  toLiveView := Rows.liveView
  readable_of_lasts h := Nat.lt_of_lt_of_le h.2 (Nat.le_trans (Nat.min_le_right _ _) (Nat.sub_le _ _))
  read_of_lasts := Rows.read_of_lasts

variable {σ β : Type} [Backend σ] {live : Clock → Text → σ → β} {readable : Clock → Prop}
  {lasts : Clock → Nat → Clock → Prop} {clock later : Clock} {key : Text}

/-- What is live alike is read alike later. -/
theorem Backend.LiveView.read_eq (hview : LiveView live readable) (hle : clock ≤ later)
    (hreadable : readable later) {s t : σ} (h : Alike live clock key s t) :
    (Backend.read later key s).1 = (Backend.read later key t).1 :=
  (hview.read hreadable key s t (hview.later hle key s t h)).1

/-- A read of the key at that time gives the bytes. -/
def RecordStore.Shows (clock : Clock) (key : Text) (b : Bytes) (s : RecordStore σ) : Prop :=
  (Backend.read clock key s.backend).1 = .ok (some b)

namespace Service

open RecordStore (Shows)

/-! ### Requests in between -/

/-- The download key whose record a request writes or deletes. -/
def Request.edits? : Request → Option Text
  | .upload uploadKey _ | .patch uploadKey _ _ | .delete uploadKey =>
    (downloadKeyOf uploadKey).toOption
  | .downloadJson _ | .downloadField _ _ | .purge => none

def fieldOutcome (path : Text) (record : Record) : Outcome Error Value :=
  match record.field path with
  | .ok value => .ok value
  | .error .missing => .error (.fieldNotFound path)
  | .error .throughLeaf => .error (.invalidPath path)

theorem downloadField_eq (clock : Clock) (downloadKey path : Text) (s : RecordStore σ) :
    downloadField clock downloadKey path s =
      ((RecordStore.get clock (Credential.normalizeDownload downloadKey) s).1.bind
          (fieldOutcome path),
        (RecordStore.get clock (Credential.normalizeDownload downloadKey) s).2) := by
  refine bind_done (fun record => ?_) s
  unfold fieldOutcome
  cases record.field path with
  | ok value => rfl
  | error reason => cases reason <;> rfl

theorem Request.keeps_live_of_not_edits (hview : LiveView live readable) {request : Request}
    (h : request.edits? ≠ some key) (clock : Clock) (s : RecordStore σ) :
    live clock key (request.respond clock s).2.backend = live clock key s.backend := by
  have hother : ∀ request : Request, request.target? ≠ some key →
      live clock key (request.respond clock s).2.backend = live clock key s.backend :=
    fun request hrequest => (request.keeps_live hview hrequest clock s).2
  cases request with
  | upload uploadKey params => exact hother (.upload uploadKey params) h
  | patch uploadKey path params => exact hother (.patch uploadKey path params) h
  | delete uploadKey => exact hother (.delete uploadKey) h
  | purge => exact hother .purge h
  | downloadJson downloadKey =>
    have hstate : ((Request.downloadJson downloadKey).respond clock s).2 =
        (RecordStore.getBytes clock (Credential.normalizeDownload downloadKey) s).2 :=
      congrArg Prod.snd (bind_pure_apply _ s)
    rw [hstate, RecordStore.getBytes_eq]
    exact hview.keeps_read clock key _ s.backend
  | downloadField downloadKey path =>
    have hstate : ((Request.downloadField downloadKey path).respond clock s).2 =
        (Service.downloadField clock downloadKey path s).2 := congrArg Prod.snd (bind_pure_apply _ s)
    rw [hstate, downloadField_eq, RecordStore.get_eq]
    exact hview.keeps_read clock key _ s.backend

theorem shows_respond (hview : LiveView live readable) (hle : clock ≤ later)
    (hreadable : readable later) {request : Request} (hother : request.edits? ≠ some key) {b : Bytes}
    {s : RecordStore σ} (h : Shows later key b s) :
    Shows later key b (request.respond clock s).2 :=
  (hview.read_eq hle hreadable (Request.keeps_live_of_not_edits hview hother clock s)).trans h

/-! ### Writes -/

/-- What a write has done: under the download key there is now a merge of the fields at the path,
with the stamp of the moment. -/
structure Wrote (clock : Clock) (uploadKey path : Text) (params : Params) (written : Written)
    (s : RecordStore σ) : Prop where
  key : downloadKeyOf uploadKey = .ok written.downloadKey
  record : ∃ (existing : Record) (moment : Moment), existing.depth ≤ Record.nestingLimit ∧
    clock.moment? = some moment ∧ written.record = (existing.merged path params).stamp moment
  put : ∃ before, RecordStore.put clock written.downloadKey written.record before = (.ok (), s)

variable {uploadKey path : Text} {params : Params} {written : Written} {s s' : RecordStore σ}

theorem wrote_of_upload (h : upload clock uploadKey params s = (.ok written, s')) :
    Wrote clock uploadKey [] params written s' := by
  obtain ⟨key, hkey, hcommit⟩ := upload_eq_ok h
  obtain ⟨moment, hmoment, rfl, hput⟩ := commit_eq_ok hcommit
  refine ⟨hkey, ⟨.empty, moment, by decide, hmoment, ?_⟩, s, hput⟩
  rw [Record.ofParams_eq_merged]

theorem wrote_of_patch (h : patch clock uploadKey path params s = (.ok written, s')) :
    Wrote clock uploadKey path params written s' := by
  obtain ⟨key, existing, s₁, hkey, hexisting, hcommit⟩ := patch_eq_ok h
  obtain ⟨hdepth, -⟩ := RecordStore.getOrEmpty_eq_ok hexisting
  obtain ⟨moment, hmoment, rfl, hput⟩ := commit_eq_ok hcommit
  exact ⟨hkey, ⟨existing, moment, hdepth, hmoment, rfl⟩, s₁, hput⟩

theorem Wrote.shows (hview : LastingView live readable lasts)
    (h : Wrote clock uploadKey path params written s) (hlasts : lasts clock s.retention later) :
    Shows later written.downloadKey written.record.toBytes s := by
  obtain ⟨before, hput⟩ := h.put
  obtain ⟨hwrite, hretention⟩ := RecordStore.put_eq_ok hput
  rw [← hretention] at hwrite
  exact congrArg Prod.fst (hview.read_of_lasts hwrite hlasts)

/-- A field that has been written can be downloaded while its record is shown. -/
theorem Wrote.downloadField (h : Wrote clock uploadKey path params written s) {name text : Text}
    (hname : '/' ∉ name) (hfree : (mergeSegments path).head? ≠ some Record.timestampName)
    (hlength : (mergeSegments path).length < Record.nestingLimit)
    (htext : params.get? name = some text) :
    ∃ moment, clock.moment? = some moment ∧ ∀ later (s : RecordStore σ),
      Shows later written.downloadKey written.record.toBytes s →
      ∃ s', Service.downloadField later written.downloadKey (fieldPath path name) s =
        (.ok (.leaf (Record.writtenText moment path name text)), s') := by
  obtain ⟨existing, moment, hdepth, hmoment, hrecord⟩ := h.record
  refine ⟨moment, hmoment, fun later s hshows => ?_⟩
  have hread : written.record.depth ≤ Record.nestingLimit := by
    rw [hrecord]
    exact (depth_stamp_merged_le_iff_isHarmless hdepth path params moment).2 (.inl hlength)
  obtain ⟨b, hkey⟩ := exists_of_downloadKeyOf h.key
  have hnormal : Credential.normalizeDownload written.downloadKey = written.downloadKey := by
    rw [hkey, Credential.normalizeDownload_encode]
  have hget : (RecordStore.get later written.downloadKey s).1 = .ok written.record := by
    rw [RecordStore.get_eq, hshows]
    change RecordStore.decoded written.record.toBytes = _
    rw [RecordStore.decoded_toBytes, if_pos hread]
  rw [downloadField_eq, hnormal, hget]
  refine ⟨_, congrArg (·, _) ?_⟩
  change fieldOutcome _ written.record = _
  rw [fieldOutcome, hrecord, Record.field_stamp_merged existing moment hname hfree htext]

end Service

end DeadDrop
