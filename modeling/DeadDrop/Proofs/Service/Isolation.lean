import DeadDrop.Proofs.Service.Requests
import DeadDrop.Proofs.Store.Live

/-!
# Isolation of credentials

The holders of one record cannot tell what else the service is asked for. Leave out of a run every
sweep and every request that does not work under their download key, be its key another or none at
all: the requests that remain are answered as before. The two runs leave different stores behind,
since a sweep or a read may remove what is over, but the same is live under the key in both.

With rows this ends at the last millisecond that a row can have. Once the wall clock is set past it,
a row which is still held cannot be read, whereas one that has been swept is merely gone.
-/

namespace DeadDrop.Service

open DeadDrop.Action Backend RecordStore

variable {σ β : Type} [Backend σ] {live : Clock → Text → σ → β} {readable : Clock → Prop}

def Request.concerns (key : Text) (request : Request) : Bool :=
  decide (request.target? = some key)

theorem agreeUnder_of_liveView (hview : LiveView live readable) {clock : Clock}
    (hreadable : readable clock) (key : Text) (retention : Nat) :
    AgreeUnder (Alike live clock key) clock clock key retention where
  read := hview.read hreadable key
  write value := hview.write clock key value (some retention)
  remove := hview.remove clock key

/-- A request that does not work under a key leaves what is live there. -/
theorem Request.keeps_live (hview : LiveView live readable) {key : Text} {request : Request}
    (hother : request.target? ≠ some key) (clock : Clock) (s : RecordStore σ) :
    (request.respond clock s).2.retention = s.retention ∧
      live clock key (request.respond clock s).2.backend = live clock key s.backend := by
  refine request.keeps_respond clock (fun other htarget => ?_)
    (fun _ => hview.keeps_sweep clock key) s
  have hne : key ≠ other := fun heq => hother (heq ▸ htarget)
  exact ⟨hview.keeps_read clock key other, hview.keeps_write clock hne,
    hview.keeps_remove clock hne⟩

/-- Isolation on a backend that is seen through a view of what is live. -/
theorem filter_requests_of_liveView (hview : LiveView live readable) (key : Text)
    {run : List (Timed Request)} (hchron : Chronological run)
    (hreadable : ∀ i ∈ run, i.call.concerns key = true → readable i.clock) (s : RecordStore σ) :
    (requests run s).filter (fun entry => entry.1.call.concerns key) =
      requests (run.filter fun i => i.call.concerns key) s := by
  refine filter_transcript_eq (fun clock => Related (Alike live clock key) s.retention)
    (Request.concerns key) ?_ ?_ ?_ fun i _ => ⟨rfl, rfl, rfl⟩
  · intro i hi hshared
    have htarget : i.call.target? = some key := of_decide_eq_true hshared
    refine i.call.agree_respond rfl (fun other hother => ?_) fun hpurge => ?_
    · obtain rfl : key = other := Option.some.inj (htarget.symm.trans hother)
      exact agreeUnder_of_liveView hview (hreadable i hi hshared) key s.retention
    · rw [hpurge] at htarget
      exact absurd htarget (by simp [Request.target?])
  · intro i _ hother a b hab
    obtain ⟨hretention, hlive⟩ := i.call.keeps_live hview (of_decide_eq_false hother) i.clock a
    exact ⟨hlive.trans hab.backend, hretention.trans hab.left, hab.right⟩
  · refine carried_of_chronological hchron fun c d a b hle hab => ?_
    exact ⟨hview.later hle key _ _ hab.backend, hab.left, hab.right⟩

/-- **Credentials are isolated.** What a run answers to the requests under one download key is what
it answers without all other requests and without the sweeps. On rows the wall clock must not have
passed the last millisecond when a request under the key is made. -/
theorem requests_isolated (key : Text) {run : List (Timed Request)} (hchron : Chronological run) :
    (∀ s : RecordStore Memory,
      (requests run s).filter (fun entry => entry.1.call.concerns key) =
        requests (run.filter fun i => i.call.concerns key) s) ∧
    (∀ s : RecordStore Rows,
      (∀ i ∈ run, i.call.concerns key = true → Rows.Readable i.clock) →
      (requests run s).filter (fun entry => entry.1.call.concerns key) =
        requests (run.filter fun i => i.call.concerns key) s) :=
  ⟨filter_requests_of_liveView Memory.liveView key hchron fun _ _ _ => trivial,
    fun s hreadable => filter_requests_of_liveView Rows.liveView key hchron hreadable s⟩

/-! ### Past the last millisecond -/

/-- An upload, a sweep as soon as the record is over, and a download at a time of the caller's
choice. -/
def sweptRun (late : Clock) : List (Timed Request) :=
  let start : Clock := { wall := 1700000000000000000, monotonic := 1000000000000000 }
  [⟨start, .upload sampleUploadKey (Table.empty.insert ['a'] ['1'])⟩,
    ⟨start.advance 60000000000, .purge⟩, ⟨late, .downloadJson sampleDownloadKey⟩]

theorem requests_isolated_sample :
    let run := sweptRun { wall := 1700000090000000000, monotonic := 1000090000000000 }
    Chronological run ∧
      (∀ i ∈ run, i.call.concerns sampleDownloadKey = true → Rows.Readable i.clock) ∧
      (requests run (⟨Rows.empty, 60000000000⟩ : RecordStore Rows)).filter
          (fun entry => entry.1.call.concerns sampleDownloadKey) =
        requests (run.filter fun i => i.call.concerns sampleDownloadKey)
          ⟨Rows.empty, 60000000000⟩ := by
  intro run
  have hchron : Chronological run := by decide +kernel
  have hreadable : ∀ i ∈ run, i.call.concerns sampleDownloadKey = true →
      Rows.Readable i.clock := by
    intro i hi _
    simp only [run, sweptRun, List.mem_cons, List.not_mem_nil, or_false] at hi
    rcases hi with rfl | rfl | rfl <;> unfold Rows.Readable <;> decide +kernel
  exact ⟨hchron, hreadable, (requests_isolated sampleDownloadKey hchron).2 _ hreadable⟩

/-- Whether a request was told that there is nothing. -/
def toldMissing : Outcome Error Reply → Bool
  | .error (.notFound _) => true
  | _ => false

/-- Where the wall clock is set past the last millisecond before the download, and the monotonic
clock stands still, the download finds nothing after the sweep, and fails without it. -/
theorem not_requests_isolated_past_last_millisecond :
    let run := sweptRun { wall := 18446744073709552000000000, monotonic := 1000060000000000 }
    let store : RecordStore Rows := ⟨Rows.empty, 60000000000⟩
    Chronological run ∧ (∀ i ∈ run, 0 < i.clock.wall) ∧
      (requests run store).filter (fun entry => entry.1.call.concerns sampleDownloadKey) ≠
        requests (run.filter fun i => i.call.concerns sampleDownloadKey) store := by
  intro run store
  refine ⟨by decide +kernel, by decide +kernel, fun hisolated => ?_⟩
  have hanswers := congrArg (List.map fun entry => toldMissing entry.2) hisolated
  exact absurd hanswers (by decide +kernel)

end DeadDrop.Service
