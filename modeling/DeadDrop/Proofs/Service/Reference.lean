import DeadDrop.Proofs.Record.Field
import DeadDrop.Proofs.Service.Readable
import DeadDrop.Proofs.Store.Mirror

/-!
# The reference machine

What the service does, said without storage: for each download key there is a tree and a time of
expiry, and a tree is seen until that time and not from then on. A write makes the expiry anew,
nothing else changes it. A pair that is no longer seen is dropped when its key is read or when all
are swept, and a sweep tells how many it has dropped.

On either backend the service answers every request as this machine does, as long as no patch takes
a path on which its record would be lost. The memory holds each tree as its JSON, with the same
expiry, and the rows mirror the memory.
-/

namespace DeadDrop.Service

open DeadDrop.Action

/-- A tree and the time from which on it is not seen. -/
structure Pair where
  tree : Record
  expiry : Nat

abbrev Pairs := Table Text Pair

namespace Pairs

def seen (now : Nat) (key : Text) (pairs : Pairs) : Option Record :=
  (pairs.get? key).bind fun pair => if now < pair.expiry then some pair.tree else none

/-- The pairs without that under a key, if it is not seen. -/
def settled (now : Nat) (key : Text) (pairs : Pairs) : Pairs :=
  if (pairs.seen now key).isSome then pairs else pairs.erase key

theorem seen_of_absent {key : Text} {pairs : Pairs} (h : pairs.get? key = none) (now : Nat) :
    pairs.seen now key = none := by
  rw [seen, h]
  rfl

theorem seen_of_get? {key : Text} {pairs : Pairs} {pair : Pair}
    (h : pairs.get? key = some pair) (now : Nat) :
    pairs.seen now key = if now < pair.expiry then some pair.tree else none := by
  rw [seen, h, Option.bind_some]

/-- Sets the tree under a key, to be seen for the retention time from now. -/
def set (retention now : Nat) (key : Text) (tree : Record) : Action Pairs Error Reply :=
  fun pairs => (.ok (.written { downloadKey := key, record := tree }),
    pairs.insert key { tree, expiry := now + retention })

/-- What the machine answers to a request, and what it keeps. -/
def respond (retention now : Nat) (moment? : Option Moment) : Request → Action Pairs Error Reply
  | .upload uploadKey params => fun pairs =>
    match downloadKeyOf uploadKey, moment? with
    | .error reason, _ => (.error reason, pairs)
    | .ok _, none => (.abort, pairs)
    | .ok key, some moment =>
      let tree := Record.ofParams (params.insert Record.timestampName moment.toSecondsText)
      set retention now key tree pairs
  | .patch uploadKey path params => fun pairs =>
    match downloadKeyOf uploadKey, moment? with
    | .error reason, _ => (.error reason, pairs)
    | .ok key, none => (.abort, pairs.settled now key)
    | .ok key, some moment =>
      let tree := ((pairs.seen now key).getD .empty).merged path params
      set retention now key (tree.insertLeaf Record.timestampName moment.toSecondsText)
        (pairs.settled now key)
  | .delete uploadKey => fun pairs =>
    match downloadKeyOf uploadKey with
    | .error reason => (.error reason, pairs)
    | .ok key => (.ok (.deleted key), pairs.erase key)
  | .downloadJson downloadKey => fun pairs =>
    let key := Credential.normalizeDownload downloadKey
    let answer :=
      match pairs.seen now key with
      | none => .error .recordNotFound
      | some tree => .ok (.json tree.toBytes)
    (answer, pairs.settled now key)
  | .downloadField downloadKey path => fun pairs =>
    let key := Credential.normalizeDownload downloadKey
    let answer :=
      match pairs.seen now key with
      | none => .error .recordNotFound
      | some tree =>
        match tree.field path with
        | .ok value => .ok (.field value)
        | .error .missing => .error (.fieldNotFound path)
        | .error .throughLeaf => .error (.invalidPath path)
    (answer, pairs.settled now key)
  | .purge => fun pairs =>
    (.ok (.purged (pairs.filter fun _ pair => !decide (now < pair.expiry)).size),
      pairs.filter fun _ pair => decide (now < pair.expiry))

/-- The requests of a run with the machine's answers, from no pairs on. The time is read off one of
the clocks. -/
def requests (time : Clock → Nat) (retention : Nat) (run : List (Timed Request)) :
    List (Timed Request × Outcome Error Reply) :=
  transcript (fun i => respond retention (time i.clock) i.clock.moment? i.call) run Table.empty

end Pairs

/-! ### In memory -/

/-- A memory entry holds the JSON of a tree that can be read back, until the tree's expiry. -/
def Holds (entry : MemoryEntry) (pair : Pair) : Prop :=
  entry = { value := pair.tree.toBytes, expiry := some pair.expiry } ∧
    pair.tree.depth ≤ Record.nestingLimit

structure Stored (retention : Nat) (s : RecordStore Memory) (pairs : Pairs) : Prop where
  retention : s.retention = retention
  entries : s.backend.entries.Matches Holds pairs

variable {retention : Nat} {clock : Clock} {s : RecordStore Memory} {pairs : Pairs}

theorem isOver_of_holds {entry : MemoryEntry} {pair : Pair} (h : Holds entry pair) (now : Nat) :
    entry.isOver now = !decide (now < pair.expiry) := by
  rw [h.1, MemoryEntry.isOver, ← decide_not]
  exact decide_eq_decide.2 Nat.not_lt.symm

/-- A read finds the JSON of the tree that is seen, and leaves what the machine keeps. -/
theorem read_stored (clock : Clock) (h : Stored retention s pairs) (key : Text) :
    (Memory.read clock key s.backend).1 =
        .ok ((pairs.seen clock.monotonic key).map Record.toBytes) ∧
      Stored retention { s with backend := (Memory.read clock key s.backend).2 }
        (pairs.settled clock.monotonic key) := by
  unfold Memory.read Pairs.settled
  rcases h.entries.get?_cases key with ⟨hentry, hpair⟩ | ⟨entry, pair, hentry, hpair, hholds⟩
  · rw [Pairs.seen_of_absent hpair, Table.erase_of_absent hpair]
    simp only [hentry]
    exact ⟨rfl, h.retention, by simpa using h.entries⟩
  · have hover := isOver_of_holds hholds clock.monotonic
    rw [Pairs.seen_of_get? hpair]
    by_cases hlive : clock.monotonic < pair.expiry
    · rw [if_pos hlive]
      simp only [hentry, hover, hlive, decide_true, Bool.not_true, Bool.false_eq_true, if_false]
      exact ⟨by rw [hholds.1]; rfl, h.retention, by simpa using h.entries⟩
    · rw [if_neg hlive]
      simp only [hentry, hover, hlive, decide_false, Bool.not_false, if_true]
      exact ⟨rfl, h.retention, by simpa using h.entries.erase key⟩

theorem depth_of_seen (h : Stored retention s pairs) {now : Nat} {key : Text} {tree : Record}
    (hseen : pairs.seen now key = some tree) : tree.depth ≤ Record.nestingLimit := by
  obtain ⟨pair, hpair, htree⟩ := Option.bind_eq_some_iff.1 hseen
  rcases h.entries.get?_cases key with ⟨_, hnone⟩ | ⟨entry, pair', _, hsome, hholds⟩
  · rw [hnone] at hpair
    exact absurd hpair (by simp)
  · rw [hsome] at hpair
    obtain rfl := Option.some.inj hpair
    split at htree
    · exact Option.some.inj htree ▸ hholds.2
    · exact absurd htree (by simp)

theorem getBytes_stored (clock : Clock) (h : Stored retention s pairs) (key : Text) :
    (RecordStore.getBytes clock key s).1 =
        (match pairs.seen clock.monotonic key with
          | none => .error .recordNotFound
          | some tree => .ok tree.toBytes) ∧
      Stored retention (RecordStore.getBytes clock key s).2
        (pairs.settled clock.monotonic key) := by
  obtain ⟨hread, hstate⟩ := read_stored clock h key
  rw [RecordStore.getBytes_eq]
  refine ⟨?_, hstate⟩
  change RecordStore.readBytes (Memory.read clock key s.backend).1 = _
  rw [hread]
  cases pairs.seen clock.monotonic key <;> rfl

theorem get_stored (clock : Clock) (h : Stored retention s pairs) (key : Text) :
    (RecordStore.get clock key s).1 =
        (match pairs.seen clock.monotonic key with
          | none => .error .recordNotFound
          | some tree => .ok tree) ∧
      Stored retention (RecordStore.get clock key s).2 (pairs.settled clock.monotonic key) := by
  obtain ⟨hread, hstate⟩ := read_stored clock h key
  rw [RecordStore.get_eq]
  refine ⟨?_, hstate⟩
  change (RecordStore.readBytes (Memory.read clock key s.backend).1).bind RecordStore.decoded = _
  rw [hread]
  cases hseen : pairs.seen clock.monotonic key with
  | none => rfl
  | some tree => exact (RecordStore.decoded_toBytes tree).trans (if_pos (depth_of_seen h hseen))

theorem getOrEmpty_stored (clock : Clock) (h : Stored retention s pairs) (key : Text) :
    (RecordStore.getOrEmpty clock key s).1 =
        .ok ((pairs.seen clock.monotonic key).getD .empty) ∧
      Stored retention (RecordStore.getOrEmpty clock key s).2
        (pairs.settled clock.monotonic key) := by
  obtain ⟨hget, hstate⟩ := get_stored clock h key
  rw [RecordStore.getOrEmpty_eq]
  refine ⟨?_, hstate⟩
  simp only [hget]
  cases pairs.seen clock.monotonic key <;> rfl

/-- A write of a tree that can be read back sets the machine's pair. -/
theorem commit_stored (h : Stored retention s pairs)
    (hclock : clock.monotonic + retention < Memory.clockLimit) {moment : Moment}
    (hmoment : clock.moment? = some moment) (key : Text) {change : Moment → Record}
    (hdepth : (change moment).depth ≤ Record.nestingLimit) :
    (commit clock key change s).1 = .ok { downloadKey := key, record := change moment } ∧
      Stored retention (commit clock key change s).2
        (pairs.insert key ⟨change moment, clock.monotonic + retention⟩) := by
  have hwrite : Backend.write clock key (change moment).toBytes (some s.retention) s.backend =
      (.ok (), _) := Memory.write_of_lt (h.retention.symm ▸ hclock) key _ s.backend
  rw [commit_of_moment hmoment, RecordStore.put_eq, hwrite]
  refine ⟨rfl, h.retention, h.entries.insert key ⟨?_, hdepth⟩⟩
  rw [h.retention]

theorem agree_upload (hclock : clock.monotonic + retention < Memory.clockLimit) (uploadKey : Text)
    (params : Params) :
    Agree (Stored retention) ((Request.upload uploadKey params).respond clock)
      (Pairs.respond retention clock.monotonic clock.moment? (.upload uploadKey params)) := by
  intro s pairs h
  rw [Request.respond, bind_pure_apply]
  simp only [Pairs.respond]
  cases hkey : downloadKeyOf uploadKey with
  | error reason =>
    rw [upload_eq, hkey]
    exact ⟨rfl, h⟩
  | ok key =>
    rw [upload_of_key hkey]
    cases hmoment : clock.moment? with
    | none =>
      rw [commit_of_no_moment hmoment]
      exact ⟨rfl, h⟩
    | some moment =>
      have hdepth : ((Record.ofParams params).stamp moment).depth ≤ Record.nestingLimit :=
        Nat.le_trans (Record.depth_stamp_ofParams params moment) (by decide)
      obtain ⟨houtcome, hstate⟩ := commit_stored h hclock hmoment key hdepth
      rw [Record.stamp_ofParams] at houtcome hstate
      rw [houtcome]
      exact ⟨rfl, hstate⟩

theorem agree_patch (hclock : clock.monotonic + retention < Memory.clockLimit) (uploadKey : Text)
    {path : Text} (hpath : IsHarmless path) (params : Params) :
    Agree (Stored retention) ((Request.patch uploadKey path params).respond clock)
      (Pairs.respond retention clock.monotonic clock.moment? (.patch uploadKey path params)) := by
  intro s pairs h
  rw [Request.respond, bind_pure_apply]
  simp only [Pairs.respond]
  cases hkey : downloadKeyOf uploadKey with
  | error reason =>
    rw [patch_eq, hkey]
    exact ⟨rfl, h⟩
  | ok key =>
    obtain ⟨hexisting, hsettled⟩ := getOrEmpty_stored clock h key
    have hget : RecordStore.getOrEmpty clock key s = (.ok _, _) := Prod.ext hexisting rfl
    rw [patch_of_key hkey, bind_of_ok hget]
    cases hmoment : clock.moment? with
    | none =>
      rw [commit_of_no_moment hmoment]
      exact ⟨rfl, hsettled⟩
    | some moment =>
      have hdepth := (depth_stamp_merged_le_iff_isHarmless (RecordStore.getOrEmpty_eq_ok hget).1
        path params moment).2 hpath
      obtain ⟨houtcome, hstate⟩ := commit_stored hsettled hclock hmoment key hdepth
      rw [houtcome]
      exact ⟨rfl, hstate⟩

theorem agree_delete (uploadKey : Text) :
    Agree (Stored retention) ((Request.delete uploadKey).respond clock)
      (Pairs.respond retention clock.monotonic clock.moment? (.delete uploadKey)) := by
  intro s pairs h
  rw [Request.respond, bind_pure_apply]
  unfold delete
  simp only [Pairs.respond]
  cases downloadKeyOf uploadKey with
  | error reason => exact ⟨rfl, h⟩
  | ok key => exact ⟨rfl, h.retention, h.entries.erase key⟩

theorem agree_downloadJson (downloadKey : Text) :
    Agree (Stored retention) ((Request.downloadJson downloadKey).respond clock)
      (Pairs.respond retention clock.monotonic clock.moment? (.downloadJson downloadKey)) := by
  intro s pairs h
  obtain ⟨houtcome, hstate⟩ :=
    getBytes_stored clock h (Credential.normalizeDownload downloadKey)
  rw [Request.respond, bind_pure_apply]
  simp only [Pairs.respond, downloadJson, houtcome]
  refine ⟨?_, hstate⟩
  cases pairs.seen clock.monotonic (Credential.normalizeDownload downloadKey) <;> rfl

theorem agree_downloadField (downloadKey path : Text) :
    Agree (Stored retention) ((Request.downloadField downloadKey path).respond clock)
      (Pairs.respond retention clock.monotonic clock.moment?
        (.downloadField downloadKey path)) := by
  intro s pairs h
  obtain ⟨houtcome, hstate⟩ :=
    get_stored clock h (Credential.normalizeDownload downloadKey)
  rw [Request.respond, bind_pure_apply]
  unfold downloadField
  simp only [Pairs.respond]
  cases hseen : pairs.seen clock.monotonic (Credential.normalizeDownload downloadKey) with
  | none =>
    rw [hseen] at houtcome
    rw [bind_of_error (Prod.ext houtcome rfl)]
    exact ⟨rfl, hstate⟩
  | some tree =>
    rw [hseen] at houtcome
    rw [bind_of_ok (Prod.ext houtcome rfl)]
    dsimp only
    cases tree.field path with
    | ok value => exact ⟨rfl, hstate⟩
    | error reason => cases reason <;> exact ⟨rfl, hstate⟩

theorem agree_purge :
    Agree (Stored retention) (Request.purge.respond clock)
      (Pairs.respond retention clock.monotonic clock.moment? .purge) := by
  intro s pairs h
  have hkept : (s.backend.entries.filter fun _ entry =>
      !entry.isOver clock.monotonic).Matches Holds
        (pairs.filter fun _ pair => decide (clock.monotonic < pair.expiry)) :=
    h.entries.filter fun _ entry pair hholds => by
      rw [isOver_of_holds hholds, Bool.not_not]
  have hdropped : (s.backend.entries.filter fun _ entry =>
      !!entry.isOver clock.monotonic).Matches Holds
        (pairs.filter fun _ pair => !decide (clock.monotonic < pair.expiry)) :=
    h.entries.filter fun _ entry pair hholds => by
      rw [isOver_of_holds hholds, Bool.not_not]
  rw [Request.respond, bind_pure_apply]
  refine ⟨?_, h.retention, hkept⟩
  change Outcome.ok (Reply.purged (s.backend.entries.size - _)) = _
  rw [Table.size_sub_size_filter, hdropped.size_eq]
  rfl

/-- Each request, to a store that holds the machine's pairs, is answered as by the machine. -/
theorem agree_respond_memory (request : Request)
    (hclock : clock.monotonic + retention < Memory.clockLimit)
    (hpath : ∀ uploadKey path params, request = .patch uploadKey path params → IsHarmless path) :
    Agree (Stored retention) (request.respond clock)
      (Pairs.respond retention clock.monotonic clock.moment? request) := by
  cases request with
  | upload uploadKey params => exact agree_upload hclock uploadKey params
  | patch uploadKey path params =>
    exact agree_patch hclock uploadKey (hpath uploadKey path params rfl) params
  | delete uploadKey => exact agree_delete uploadKey
  | downloadJson downloadKey => exact agree_downloadJson downloadKey
  | downloadField downloadKey path => exact agree_downloadField downloadKey path
  | purge => exact agree_purge

/-! ### In rows -/

/-- The wall clock shows whole milliseconds since 1970, and no expiry that is set now lies past the
last millisecond. -/
def WholeMillis (retention : Nat) (clock : Clock) : Prop :=
  0 ≤ clock.wall ∧ (Row.million : Int) ∣ clock.wall ∧
    clock.wall + retention < (Row.millisLimit * Row.million : Nat)

instance (retention : Nat) (clock : Clock) : Decidable (WholeMillis retention clock) :=
  inferInstanceAs (Decidable (_ ∧ _))

def onWall (clock : Clock) : Clock := { clock with monotonic := clock.wall.toNat }

theorem moment?_onWall (clock : Clock) : (onWall clock).moment? = clock.moment? := rfl

theorem aligned_onWall (h : WholeMillis retention clock) :
    Clock.Aligned 0 (onWall clock) clock (Rows.millis clock) := by
  obtain ⟨hpast, hwhole, hrange⟩ := h
  have hlimit : Row.millisLimit = 18446744073709551616 := rfl
  constructor
  · refine Row.millisOf_eq_ok_iff.2 ?_
    simp only [Rows.millis, Row.million] at hwhole hrange ⊢
    omega
  · simp only [onWall, Rows.millis, Row.million] at hwhole ⊢
    omega

theorem onWall_lt_clockLimit (h : WholeMillis retention clock) :
    (onWall clock).monotonic + retention < Memory.clockLimit := by
  obtain ⟨hpast, _, hrange⟩ := h
  have hlimit : Row.millisLimit = 18446744073709551616 := rfl
  have hclockLimit : Memory.clockLimit = 9223372036854775808000000000 := rfl
  simp only [onWall, Row.million] at hrange ⊢
  omega

theorem agreeUnder_onWall (hwhole : Row.million ∣ retention) (hpositive : 0 < retention)
    (h : WholeMillis retention clock) (key : Text) :
    RecordStore.AgreeUnder (Rows.Mirrors 0) (onWall clock) clock key retention := by
  have haligned := aligned_onWall h
  have hclock := onWall_lt_clockLimit h
  obtain ⟨hpast, hmillis, hrange⟩ := h
  obtain ⟨span, rfl⟩ := hwhole
  have hspan : 0 < span := Nat.pos_of_mul_pos_left hpositive
  have hlimit : Row.millisLimit = 18446744073709551616 := rfl
  refine ⟨Rows.agree_read haligned key, fun value => ?_, ?_⟩
  · rw [Nat.mul_comm]
    refine Rows.agree_write_withTtl haligned (by omega) (Nat.mul_comm _ _ ▸ hclock) ?_ key value
    simp only [Rows.millis, Row.million] at hmillis hrange ⊢
    omega
  · exact (Rows.agree_remove 0 key).bind fun _ => agree_done _ _

/-! ### Runs -/

/-- **The service is the reference machine.** If no patch of a run takes a path on which its record
would be lost, the service on a memory gives the answers of the machine that goes by the monotonic
clock. On rows, with a retention time of whole milliseconds and the wall clock at whole
milliseconds, it gives the answers of the machine that goes by the wall clock. -/
theorem requests_eq_reference (retention : Nat) {run : List (Timed Request)}
    (hpaths : ∀ i ∈ run, ∀ uploadKey path params,
      i.call = .patch uploadKey path params → IsHarmless path) :
    ((∀ i ∈ run, i.clock.monotonic + retention < Memory.clockLimit) →
      requests run (⟨Memory.empty, retention⟩ : RecordStore Memory) =
        Pairs.requests Clock.monotonic retention run) ∧
    (Row.million ∣ retention → 0 < retention → (∀ i ∈ run, WholeMillis retention i.clock) →
      requests run (⟨Rows.empty, retention⟩ : RecordStore Rows) =
        Pairs.requests (fun clock => clock.wall.toNat) retention run) := by
  have hempty : Stored retention ⟨Memory.empty, retention⟩ Table.empty :=
    ⟨rfl, Table.matches_empty⟩
  refine ⟨fun hclocks => ?_, fun hwhole hpositive hclocks => ?_⟩
  · refine transcript_eq (fun _ => Stored retention) (fun i hi s pairs h => ?_)
      (carried_const _ _) fun _ _ => hempty
    exact agree_respond_memory i.call (hclocks i hi) (hpaths i hi) s pairs h
  · calc requests run (⟨Rows.empty, retention⟩ : RecordStore Rows)
      _ = transcript (fun i => i.call.respond (onWall i.clock)) run
          (⟨Memory.empty, retention⟩ : RecordStore Memory) := by
        refine (transcript_eq (fun _ => RecordStore.Related (Rows.Mirrors 0) retention)
          (fun i hi s t h => ?_) (carried_const _ _) fun _ _ => ?_).symm
        · refine i.call.agree_respond (moment?_onWall i.clock) (fun key _ => ?_) (fun _ => ?_) s t h
          · exact agreeUnder_onWall hwhole hpositive (hclocks i hi) key
          · exact Rows.agree_sweep (aligned_onWall (hclocks i hi))
        · exact ⟨Rows.mirrors_empty 0, rfl, rfl⟩
      _ = Pairs.requests (fun clock => clock.wall.toNat) retention run := by
        refine transcript_eq (fun _ => Stored retention) (fun i hi s pairs h => ?_)
          (carried_const _ _) fun _ _ => hempty
        have hclock : (onWall i.clock).monotonic + retention < Memory.clockLimit :=
          onWall_lt_clockLimit (hclocks i hi)
        exact agree_respond_memory i.call hclock (hpaths i hi) s pairs h

/-- A record that is uploaded, patched, and read until it is over. -/
def sampleRun : List (Timed Request) :=
  let start : Clock := { wall := 1000000000, monotonic := 0 }
  [⟨start, .upload sampleUploadKey Table.empty⟩,
    ⟨start.advance 20000000000, .patch sampleUploadKey "a/b".toList Table.empty⟩,
    ⟨start.advance 79999000000, .downloadJson sampleDownloadKey⟩,
    ⟨start.advance 80000000000, .downloadField sampleDownloadKey "a".toList⟩,
    ⟨start.advance 80000000000, .delete sampleUploadKey⟩, ⟨start.advance 80000000000, .purge⟩]

theorem requests_eq_reference_sample :
    (∀ i ∈ sampleRun, ∀ uploadKey path params,
      i.call = .patch uploadKey path params → IsHarmless path) ∧
    requests sampleRun (⟨Memory.empty, 60000000000⟩ : RecordStore Memory) =
      Pairs.requests Clock.monotonic 60000000000 sampleRun ∧
    requests sampleRun (⟨Rows.empty, 60000000000⟩ : RecordStore Rows) =
      Pairs.requests (fun clock => clock.wall.toNat) 60000000000 sampleRun := by
  have hpaths : ∀ i ∈ sampleRun, ∀ uploadKey path params,
      i.call = .patch uploadKey path params → IsHarmless path := by
    intro i hi uploadKey path params hcall
    simp only [sampleRun, List.mem_cons, List.not_mem_nil, or_false] at hi
    rcases hi with rfl | rfl | rfl | rfl | rfl | rfl <;> simp at hcall
    obtain ⟨_, rfl, _⟩ := hcall
    exact .inl (by decide)
  obtain ⟨hmemory, hrows⟩ := requests_eq_reference 60000000000 hpaths
  refine ⟨hpaths, hmemory (by decide), hrows (by decide) (by decide) (by decide)⟩

end DeadDrop.Service
