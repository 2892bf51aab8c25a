import DeadDrop.Proofs.Service.Requests
import DeadDrop.Proofs.Store.Reclaimed

/-!
# Requests that fail

A request that fails has written nothing. A key can be refused, a read can fail or find bytes that
are no record, the time can be beyond the calendar or the clocks, and the storage can refuse the
write: on each of these ways every entry whose time is not over is still held, with its bytes and
its expiry. A read that came first may have removed an entry whose time was over, and nothing else.

The request for which this matters most is the patch, since it begins with a read and starts from
the empty record where there is none. It does so only if nothing is held there or its time is over:
a record that cannot be read or decoded fails the patch, and is not replaced.
-/

namespace DeadDrop.Service

open DeadDrop.Action
open Backend (SafeView)
open RecordStore (Reclaimed)

variable {σ β : Type} [Backend σ] {entries : σ → Table Text β} {ended : Clock → β → Bool}

/-- Stamping takes only the time from outside, so it fails where the write does. -/
theorem failsWithin_commit (h : SafeView entries ended) (clock : Clock) (key : Text)
    (change : Moment → Record) :
    FailsWithin (Reclaimed entries (ended clock)) (commit clock key change) := by
  have hnow : Within (Reclaimed entries (ended clock))
      (now clock : Action (RecordStore σ) Error Moment) := by
    unfold now
    cases clock.moment? with
    | none => exact within_done RecordStore.reclaimed_refl _
    | some moment => exact within_done RecordStore.reclaimed_refl _
  refine hnow.bind_failsWithin RecordStore.Reclaimed.trans fun moment => ?_
  exact (RecordStore.failsWithin_put h clock key (change moment)).bind_pure _

theorem failsWithin_upload (h : SafeView entries ended) (clock : Clock) (uploadKey : Text)
    (params : Params) :
    FailsWithin (Reclaimed entries (ended clock)) (upload clock uploadKey params) := by
  rw [upload_eq]
  refine (within_done RecordStore.reclaimed_refl _).bind_failsWithin RecordStore.Reclaimed.trans
    fun key => ?_
  exact failsWithin_commit h clock key _

theorem failsWithin_patch (h : SafeView entries ended) (clock : Clock) (uploadKey path : Text)
    (params : Params) :
    FailsWithin (Reclaimed entries (ended clock)) (patch clock uploadKey path params) := by
  rw [patch_eq]
  refine (within_done RecordStore.reclaimed_refl _).bind_failsWithin RecordStore.Reclaimed.trans
    fun key => ?_
  refine (RecordStore.within_getOrEmpty h clock key).bind_failsWithin RecordStore.Reclaimed.trans
    fun existing => ?_
  exact failsWithin_commit h clock key _

theorem failsWithin_delete (h : SafeView entries ended) (clock : Clock) (uploadKey : Text) :
    FailsWithin (Reclaimed entries (ended clock)) (delete clock uploadKey) := by
  refine (within_done RecordStore.reclaimed_refl _).bind_failsWithin RecordStore.Reclaimed.trans
    fun key => ?_
  exact (RecordStore.failsWithin_delete h clock key).bind_pure _

theorem within_downloadField (h : SafeView entries ended) (clock : Clock)
    (downloadKey path : Text) :
    Within (Reclaimed entries (ended clock)) (downloadField clock downloadKey path) := by
  refine (RecordStore.within_get h clock _).bind RecordStore.Reclaimed.trans fun record => ?_
  cases record.field path with
  | ok value => exact within_done RecordStore.reclaimed_refl _
  | error reason => cases reason <;> exact within_done RecordStore.reclaimed_refl _

theorem Request.failsWithin_respond (h : SafeView entries ended) (clock : Clock)
    (request : Request) :
    FailsWithin (Reclaimed entries (ended clock)) (request.respond clock) := by
  cases request with
  | upload uploadKey params => exact (failsWithin_upload h clock uploadKey params).bind_pure _
  | patch uploadKey path params =>
    exact (failsWithin_patch h clock uploadKey path params).bind_pure _
  | delete uploadKey => exact (failsWithin_delete h clock uploadKey).bind_pure _
  | downloadJson downloadKey =>
    exact (RecordStore.within_getBytes h clock _).failsWithin.bind_pure _
  | downloadField downloadKey path =>
    exact (within_downloadField h clock downloadKey path).failsWithin.bind_pure _
  | purge => exact (RecordStore.within_onBackend (h.sweep clock)).failsWithin.bind_pure _

/-- A patch does not get past a record that it cannot have. -/
theorem patch_eq_error_of_live (h : SafeView entries ended) {clock : Clock} {uploadKey key : Text}
    (hkey : downloadKeyOf uploadKey = .ok key) (path : Text) (params : Params) {entry : β}
    {s : RecordStore σ} (hentry : (entries s.backend).get? key = some entry)
    (hlive : ended clock entry = false)
    (hfails : ∀ record, (RecordStore.get clock key s).1 ≠ .ok record) :
    ∃ reason, (patch clock uploadKey path params s).1 = .error (.decode reason) ∨
      (patch clock uploadKey path params s).1 = .error (.storage reason) := by
  have hpatch : ∀ cause, RecordStore.orEmpty (RecordStore.get clock key s).1 = .error cause →
      (patch clock uploadKey path params s).1 = .error cause := by
    intro cause hcause
    have hexisting := RecordStore.getOrEmpty_eq clock key s
    rw [hcause] at hexisting
    rw [patch_of_key hkey, bind_of_error hexisting]
  obtain ⟨reason, hdecode | hstorage⟩ := RecordStore.get_eq_error_of_live h hentry hlive hfails
  · exact ⟨reason, .inl (hpatch _ (by rw [hdecode]; rfl))⟩
  · exact ⟨reason, .inr (hpatch _ (by rw [hstorage]; rfl))⟩

/-- What the holder of an entry is owed when a request fails, on a backend whose entries are seen
through a view. -/
structure SafeOnFailure (entries : σ → Table Text β) (ended : Clock → β → Bool) : Prop where
  /-- A request without a reply has at most reclaimed entries whose time was over. -/
  request : ∀ (clock : Clock) (request : Request) (s : RecordStore σ),
    (∀ reply, (request.respond clock s).1 ≠ .ok reply) →
    Reclaimed entries (ended clock) s (request.respond clock s).2
  /-- A patch over a record that cannot be read or decoded says so and keeps what is held. -/
  patch : ∀ (clock : Clock) (uploadKey key path : Text) (params : Params) (s : RecordStore σ)
    (entry : β), downloadKeyOf uploadKey = .ok key →
    (entries s.backend).get? key = some entry → ended clock entry = false →
    (∀ record, (RecordStore.get clock key s).1 ≠ .ok record) →
    (∃ reason, (patch clock uploadKey path params s).1 = .error (.decode reason) ∨
      (patch clock uploadKey path params s).1 = .error (.storage reason)) ∧
    (entries (patch clock uploadKey path params s).2.backend).get? key = some entry

theorem safeOnFailure_of_safeView (h : SafeView entries ended) : SafeOnFailure entries ended where
  request clock request s := request.failsWithin_respond h clock s
  patch clock uploadKey key path params s entry hkey hentry hlive hfails := by
    have herror := patch_eq_error_of_live h hkey path params hentry hlive hfails
    refine ⟨herror, ?_⟩
    -- so the patch has failed, and what it may have reclaimed is not this entry
    have hreclaimed := failsWithin_patch h clock uploadKey path params s fun written hwritten => by
      obtain ⟨reason, hdecode | hstorage⟩ := herror
      · simp [hdecode] at hwritten
      · simp [hstorage] at hwritten
    exact hreclaimed.entries.get?_of_live hentry hlive

/-- **Failed requests leave the store.** Whatever a memory or a table of rows holds, and whichever
of its operations are switched off, a request that does not succeed leaves every entry whose time is
not over, and a patch never replaces a record that it could not have. -/
theorem failed_requests_leave_store :
    SafeOnFailure (fun f : Faulty Memory => f.inner.entries)
      (fun clock => MemoryEntry.isOver clock.monotonic) ∧
    SafeOnFailure (fun f : Faulty Rows => f.inner.table)
      (fun clock => Rows.isOver (Rows.millis clock)) :=
  ⟨safeOnFailure_of_safeView (Faulty.safeView Memory.safeView),
    safeOnFailure_of_safeView (Faulty.safeView Rows.safeView)⟩

/-- A memory that holds bytes under a key that are no record, and refuses to remove. -/
def foreignStore (key : Text) : RecordStore (Faulty Memory) where
  backend :=
    { inner := ⟨Table.empty.insert key ⟨[123], none⟩⟩
      off := [(.remove, "read-only".toList)]
      sweeps := 0 }
  retention := 60000000000

theorem get?_foreignStore (key : Text) :
    (foreignStore key).backend.inner.entries.get? key = some ⟨[123], none⟩ := by
  change (Table.empty.insert key _).get? key = _
  rw [Table.get?_insert, if_pos rfl]

theorem get_foreignStore (clock : Clock) (key : Text) :
    (RecordStore.get clock key (foreignStore key)).1 = RecordStore.decoded [123] := by
  have hread : (Backend.read clock key (foreignStore key).backend).1 = .ok (some [123]) := by
    change (Memory.read clock key (foreignStore key).backend.inner).1 = _
    simp only [Memory.read, get?_foreignStore]
    rfl
  rw [RecordStore.get_eq, hread]
  rfl

theorem failed_requests_leave_store_sample :
    let clock : Clock := { wall := 0, monotonic := 0 }
    let s := foreignStore sampleDownloadKey
    (∃ reason, (patch clock sampleUploadKey [] Table.empty s).1 = .error (.decode reason) ∨
      (patch clock sampleUploadKey [] Table.empty s).1 = .error (.storage reason)) ∧
    (patch clock sampleUploadKey [] Table.empty s).2.backend.inner.entries.get? sampleDownloadKey =
      some ⟨[123], none⟩ := by
  intro clock s
  refine failed_requests_leave_store.1.patch clock sampleUploadKey sampleDownloadKey [] Table.empty
    s ⟨[123], none⟩ downloadKeyOf_sample (get?_foreignStore _) rfl ?_
  intro record
  have hforeign : Record.ofBytes? [123] = none := Option.isNone_iff_eq_none.1 (by decide +kernel)
  rw [get_foreignStore, RecordStore.decoded, hforeign]
  simp

end DeadDrop.Service
