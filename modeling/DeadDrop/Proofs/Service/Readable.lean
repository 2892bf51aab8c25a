import DeadDrop.Proofs.Record.Depth
import DeadDrop.Proofs.Record.Json
import DeadDrop.Proofs.Service.Requests
import DeadDrop.Proofs.Store.Faithful

/-!
# Which writes can be read

A record is read back after a write if its objects are not nested too deep for the reader. An upload
is flat, so it always is. A patch makes an object for every segment of its path, and nothing bounds
their number, so a patch can succeed and leave a record that no one can read or patch any more,
until it expires or is replaced. A path that begins with the reserved name does no harm, since the
stamp overwrites all it has built.
-/

namespace DeadDrop

open DeadDrop.Action

variable {σ : Type} [Backend σ]

/-! ### The record store -/

namespace RecordStore

theorem put_eq_ok {clock : Clock} {key : Text} {record : Record} {s s' : RecordStore σ}
    (h : put clock key record s = (.ok (), s')) :
    Backend.write clock key record.toBytes (some s.retention) s.backend = (.ok (), s'.backend) ∧
      s'.retention = s.retention := by
  rw [put_eq] at h
  obtain ⟨houtcome, rfl⟩ := Prod.mk.inj h
  exact ⟨Prod.ext ((Outcome.mapError_eq_ok_iff _ _ _).1 houtcome) rfl, rfl⟩

theorem decoded_toBytes (record : Record) :
    decoded record.toBytes =
      if record.depth ≤ Record.nestingLimit then .ok record
      else .error (undecodable record.toBytes) := by
  unfold decoded
  rw [Record.ofBytes?_toBytes]
  by_cases hdepth : record.depth ≤ Record.nestingLimit
  · simp only [if_pos hdepth]
  · simp only [if_neg hdepth]

theorem decoded_eq_ok {b : Bytes} {record : Record} (h : decoded b = .ok record) :
    Record.ofBytes? b = some record := by
  unfold decoded at h
  cases hrecord : Record.ofBytes? b with
  | none => simp [hrecord] at h
  | some found => simpa [hrecord] using h

theorem orEmpty_eq_ok {o : Outcome Error Record} {record : Record} (h : orEmpty o = .ok record) :
    o = .ok record ∨ record = .empty := by
  cases o with
  | ok found => exact .inl h
  | error reason =>
    cases reason with
    | notFound what => exact .inr (Outcome.ok.inj h).symm
    | _ => exact .inl h
  | abort => exact .inl h

theorem orEmpty_eq_decode_iff (o : Outcome Error Record) (reason : Text) :
    orEmpty o = .error (.decode reason) ↔ o = .error (.decode reason) := by
  cases o with
  | ok found => exact Iff.rfl
  | error cause =>
    cases cause with
    | notFound what => simp [orEmpty]
    | _ => exact Iff.rfl
  | abort => exact Iff.rfl

/-- Whatever a patch is merged into, the reader has accepted it, or it is empty. -/
theorem getOrEmpty_eq_ok {clock : Clock} {key : Text} {record : Record} {s s' : RecordStore σ}
    (h : getOrEmpty clock key s = (.ok record, s')) :
    record.depth ≤ Record.nestingLimit ∧ s'.retention = s.retention := by
  rw [getOrEmpty_eq, get_eq] at h
  obtain ⟨houtcome, rfl⟩ := Prod.mk.inj h
  refine ⟨?_, rfl⟩
  rcases orEmpty_eq_ok houtcome with hget | rfl
  · obtain ⟨b, _, hdecoded⟩ := (Outcome.bind_eq_ok_iff _ _ _).1 hget
    exact Record.depth_le_of_ofBytes? (decoded_eq_ok hdecoded)
  · decide

variable [Backend.Faithful σ]

/-- A read at the moment of a write decodes what has been written. -/
theorem get_of_put {clock : Clock} {key : Text} {record : Record} {s s' : RecordStore σ}
    (hmoment : clock.moment?.isSome = true) (hretention : Row.million ≤ s.retention)
    (h : put clock key record s = (.ok (), s')) :
    get clock key s' = (decoded record.toBytes, s') := by
  obtain ⟨hwrite, _⟩ := put_eq_ok h
  have hread := Backend.Faithful.read_write hmoment hretention hwrite
  rw [get_eq, hread]
  rfl

/-- A later read does not find anything but what has been written. -/
theorem get_ne_decode_of_put {clock later : Clock} {key : Text} {record : Record}
    {s s' : RecordStore σ} (hdepth : record.depth ≤ Record.nestingLimit)
    (h : put clock key record s = (.ok (), s')) (reason : Text) :
    (get later key s').1 ≠ .error (.decode reason) := by
  obtain ⟨hwrite, _⟩ := put_eq_ok h
  rw [get_eq]
  rcases hread : Backend.read later key s'.backend with ⟨o, b⟩
  cases o with
  | ok found =>
    cases found with
    | none => simp [readBytes, Outcome.bind, Error.recordNotFound]
    | some found =>
      have hfound := Backend.Faithful.eq_of_read hwrite hread
      simp [readBytes, Outcome.bind, hfound, decoded_toBytes, hdepth]
  | error fault => simp [readBytes, Outcome.bind]
  | abort => simp [readBytes, Outcome.bind]

end RecordStore

/-! ### The service -/

namespace Service

theorem commit_of_no_moment {clock : Clock} (h : clock.moment? = none) (key : Text)
    (change : Moment → Record) (s : RecordStore σ) :
    commit clock key change s = (.abort, s) := by
  rw [commit, now, h]
  rfl

theorem commit_of_moment {clock : Clock} {moment : Moment} (h : clock.moment? = some moment)
    (key : Text) (change : Moment → Record) (s : RecordStore σ) :
    commit clock key change s =
      ((RecordStore.put clock key (change moment) s).1.bind
          fun _ => .ok { downloadKey := key, record := change moment },
        (RecordStore.put clock key (change moment) s).2) := by
  rw [commit, now, h]
  exact bind_done (fun _ => rfl) s

theorem commit_eq_ok {clock : Clock} {key : Text} {change : Moment → Record} {written : Written}
    {s s' : RecordStore σ} (h : commit clock key change s = (.ok written, s')) :
    ∃ moment, clock.moment? = some moment ∧ written = ⟨key, change moment⟩ ∧
      RecordStore.put clock key (change moment) s = (.ok (), s') := by
  cases hmoment : clock.moment? with
  | none =>
    rw [commit_of_no_moment hmoment] at h
    exact absurd (congrArg Prod.fst h) (by simp)
  | some moment =>
    rw [commit_of_moment hmoment] at h
    obtain ⟨houtcome, rfl⟩ := Prod.mk.inj h
    obtain ⟨_, hput, hwritten⟩ := (Outcome.bind_eq_ok_iff _ _ _).1 houtcome
    exact ⟨moment, rfl, (Outcome.ok.inj hwritten).symm, Prod.ext hput rfl⟩

theorem commit_ne_decode (clock : Clock) (key : Text) (change : Moment → Record)
    (s : RecordStore σ) (reason : Text) :
    (commit clock key change s).1 ≠ .error (.decode reason) := by
  cases hmoment : clock.moment? with
  | none => simp [commit_of_no_moment hmoment]
  | some moment =>
    rw [commit_of_moment hmoment, RecordStore.put_eq]
    cases (Backend.write clock key (change moment).toBytes (some s.retention) s.backend).1 <;>
      simp [Outcome.bind]

theorem upload_eq_ok {clock : Clock} {uploadKey : Text} {params : Params} {written : Written}
    {s s' : RecordStore σ} (h : upload clock uploadKey params s = (.ok written, s')) :
    ∃ key, downloadKeyOf uploadKey = .ok key ∧
      commit clock key (Record.ofParams params).stamp s = (.ok written, s') := by
  cases hkey : downloadKeyOf uploadKey with
  | error reason =>
    rw [upload_eq, hkey] at h
    exact absurd (congrArg Prod.fst h) (by simp [Outcome.ofExcept])
  | ok key =>
    rw [upload_of_key hkey] at h
    exact ⟨key, rfl, h⟩

theorem patch_eq_ok {clock : Clock} {uploadKey path : Text} {params : Params} {written : Written}
    {s s' : RecordStore σ} (h : patch clock uploadKey path params s = (.ok written, s')) :
    ∃ key existing s₁, downloadKeyOf uploadKey = .ok key ∧
      RecordStore.getOrEmpty clock key s = (.ok existing, s₁) ∧
      commit clock key (existing.merged path params).stamp s₁ = (.ok written, s') := by
  cases hkey : downloadKeyOf uploadKey with
  | error reason =>
    rw [patch_eq, hkey] at h
    exact absurd (congrArg Prod.fst h) (by simp [Outcome.ofExcept])
  | ok key =>
    rw [patch_of_key hkey] at h
    obtain ⟨existing, s₁, hexisting, hcommit⟩ := bind_eq_ok h
    exact ⟨key, existing, s₁, rfl, hexisting, hcommit⟩

/-- A patch fails to decode exactly if a read of its key does. -/
theorem patch_eq_decode_iff {clock : Clock} {uploadKey key : Text}
    (hkey : downloadKeyOf uploadKey = .ok key) (path : Text) (params : Params)
    (s : RecordStore σ) (reason : Text) :
    (patch clock uploadKey path params s).1 = .error (.decode reason) ↔
      (RecordStore.get clock key s).1 = .error (.decode reason) := by
  have hexisting := RecordStore.getOrEmpty_eq clock key s
  rw [patch_of_key hkey, ← RecordStore.orEmpty_eq_decode_iff]
  cases ho : RecordStore.orEmpty (RecordStore.get clock key s).1 with
  | ok existing =>
    rw [ho] at hexisting
    rw [bind_of_ok hexisting]
    exact iff_of_false (commit_ne_decode clock key _ _ reason) (by simp)
  | error cause =>
    rw [ho] at hexisting
    rw [bind_of_error hexisting]
    simp
  | abort =>
    rw [ho] at hexisting
    rw [bind_of_abort hexisting]
    simp

/-! ### Readable and lost records -/

/-- What has been written is read at that moment, and no later patch fails to decode it. -/
structure Written.Readable (clock : Clock) (written : Written) (s : RecordStore σ) : Prop where
  get : (RecordStore.get clock written.downloadKey s).1 = .ok written.record
  patch : ∀ later uploadKey path params,
    downloadKeyOf uploadKey = .ok written.downloadKey →
    ∀ reason, (patch later uploadKey path params s).1 ≠ .error (.decode reason)

/-- What has been written can neither be read nor patched at that moment. -/
structure Written.Lost (clock : Clock) (written : Written) (s : RecordStore σ) : Prop where
  get : ∃ reason, (RecordStore.get clock written.downloadKey s).1 = .error (.decode reason)
  patch : ∀ uploadKey path params, downloadKeyOf uploadKey = .ok written.downloadKey →
    ∃ reason, (patch clock uploadKey path params s).1 = .error (.decode reason)

/-- A path that a patch may take to any record: it has fewer segments than objects may nest, or the
stamp overwrites what it builds. -/
def IsHarmless (path : Text) : Prop :=
  (mergeSegments path).length < Record.nestingLimit ∨
    (mergeSegments path).head? = some Record.timestampName

omit [Backend σ] in
theorem depth_stamp_merged_le_iff_isHarmless {r : Record} (hr : r.depth ≤ Record.nestingLimit)
    (path : Text) (params : Params) (moment : Moment) :
    ((r.merged path params).stamp moment).depth ≤ Record.nestingLimit ↔ IsHarmless path := by
  rw [IsHarmless, Nat.lt_iff_le_pred (by decide)]
  exact Record.depth_stamp_merged_le_iff hr path params moment

variable [Backend.Faithful σ] {clock : Clock} {s : RecordStore σ}

theorem readable_of_commit {key : Text} {change : Moment → Record} {written : Written}
    {s' : RecordStore σ} (hretention : Row.million ≤ s.retention)
    (h : commit clock key change s = (.ok written, s'))
    (hdepth : ∀ moment, (change moment).depth ≤ Record.nestingLimit) :
    written.Readable clock s' := by
  obtain ⟨moment, hmoment, rfl, hput⟩ := commit_eq_ok h
  constructor
  · rw [RecordStore.get_of_put (by rw [hmoment]; rfl) hretention hput, RecordStore.decoded_toBytes,
      if_pos (hdepth moment)]
  · intro later uploadKey path params hkey reason hpatch
    have hget := (patch_eq_decode_iff hkey path params s' reason).1 hpatch
    exact RecordStore.get_ne_decode_of_put (hdepth moment) hput reason hget

theorem lost_of_commit {key : Text} {change : Moment → Record} {written : Written}
    {s' : RecordStore σ} (hretention : Row.million ≤ s.retention)
    (h : commit clock key change s = (.ok written, s'))
    (hdepth : ∀ moment, ¬ (change moment).depth ≤ Record.nestingLimit) :
    written.Lost clock s' := by
  obtain ⟨moment, hmoment, rfl, hput⟩ := commit_eq_ok h
  have hget : (RecordStore.get clock key s').1 =
      .error (RecordStore.undecodable (change moment).toBytes) := by
    rw [RecordStore.get_of_put (by rw [hmoment]; rfl) hretention hput, RecordStore.decoded_toBytes,
      if_neg (hdepth moment)]
  exact ⟨⟨_, hget⟩, fun uploadKey path params hkey =>
    ⟨_, (patch_eq_decode_iff hkey path params s' _).2 hget⟩⟩

theorem readable_of_upload {uploadKey : Text} {params : Params} {written : Written}
    {s' : RecordStore σ} (hretention : Row.million ≤ s.retention)
    (h : upload clock uploadKey params s = (.ok written, s')) : written.Readable clock s' := by
  obtain ⟨key, _, hcommit⟩ := upload_eq_ok h
  refine readable_of_commit hretention hcommit fun moment => ?_
  exact Nat.le_trans (Record.depth_stamp_ofParams params moment) (by decide)

omit [Backend.Faithful σ] in
/-- What a patch stores can be read exactly if its path is harmless. -/
theorem commit_of_patch {uploadKey path : Text} {params : Params} {written : Written}
    {s' : RecordStore σ} (h : patch clock uploadKey path params s = (.ok written, s')) :
    ∃ key change s₁, s₁.retention = s.retention ∧ commit clock key change s₁ = (.ok written, s') ∧
      ∀ moment, (change moment).depth ≤ Record.nestingLimit ↔ IsHarmless path := by
  obtain ⟨key, existing, s₁, _, hexisting, hcommit⟩ := patch_eq_ok h
  obtain ⟨hdepth, hsame⟩ := RecordStore.getOrEmpty_eq_ok hexisting
  exact ⟨key, _, s₁, hsame, hcommit, depth_stamp_merged_le_iff_isHarmless hdepth path params⟩

theorem readable_of_patch {uploadKey path : Text} {params : Params} {written : Written}
    {s' : RecordStore σ} (hretention : Row.million ≤ s.retention)
    (h : patch clock uploadKey path params s = (.ok written, s')) (hharmless : IsHarmless path) :
    written.Readable clock s' := by
  obtain ⟨key, change, s₁, hsame, hcommit, hdepth⟩ := commit_of_patch h
  exact readable_of_commit (hsame ▸ hretention) hcommit fun moment => (hdepth moment).2 hharmless

theorem lost_of_patch {uploadKey path : Text} {params : Params} {written : Written}
    {s' : RecordStore σ} (hretention : Row.million ≤ s.retention)
    (h : patch clock uploadKey path params s = (.ok written, s')) (hharmful : ¬ IsHarmless path) :
    written.Lost clock s' := by
  obtain ⟨key, change, s₁, hsame, hcommit, hdepth⟩ := commit_of_patch h
  exact lost_of_commit (hsame ▸ hretention) hcommit fun moment hle =>
    hharmful ((hdepth moment).1 hle)

/-- **Which writes can be read.** With a retention time of a millisecond or more, a successful
upload can be read, and so can a successful patch if its path is harmless. After any other patch
that succeeds the record is lost. -/
theorem readable_written (hretention : Row.million ≤ s.retention) (uploadKey : Text)
    (params : Params) (written : Written) (s' : RecordStore σ) :
    (upload clock uploadKey params s = (.ok written, s') → written.Readable clock s') ∧
    (∀ path, patch clock uploadKey path params s = (.ok written, s') →
      (IsHarmless path → written.Readable clock s') ∧
      (¬ IsHarmless path → written.Lost clock s')) :=
  ⟨readable_of_upload hretention,
    fun _ h => ⟨readable_of_patch hretention h, lost_of_patch hretention h⟩⟩

/-! ### Deep paths -/

def deepPath (segments : Nat) : Text := (List.replicate segments 'a').intersperse '/'

theorem isHarmless_deepPath : IsHarmless (deepPath 126) := .inl (by decide +kernel)

theorem not_isHarmless_deepPath : ¬ IsHarmless (deepPath 127) :=
  not_or.2 ⟨by decide +kernel, by decide +kernel⟩

/-- Into an empty memory every path can be patched. -/
theorem exists_patch_eq_ok {clock : Clock} (hmoment : clock.moment?.isSome = true)
    {uploadKey key : Text} (hkey : downloadKeyOf uploadKey = .ok key) (path : Text)
    (params : Params) {retention : Nat}
    (hretention : clock.monotonic + retention < Memory.clockLimit) :
    ∃ written s', patch clock uploadKey path params ⟨Memory.empty, retention⟩ =
      (.ok written, s') := by
  obtain ⟨moment, hmoment⟩ := Option.isSome_iff_exists.1 hmoment
  have hexisting : RecordStore.getOrEmpty clock key ⟨Memory.empty, retention⟩ =
      (.ok .empty, (⟨Memory.empty, retention⟩ : RecordStore Memory)) := rfl
  have hwrite : Backend.write clock key ((Record.empty.merged path params).stamp moment).toBytes
      (some retention) Memory.empty = (.ok (), _) :=
    Memory.write_of_lt hretention key _ Memory.empty
  have hcommit : ∃ written s', commit clock key (Record.empty.merged path params).stamp
      (⟨Memory.empty, retention⟩ : RecordStore Memory) = (.ok written, s') := by
    rw [commit_of_moment hmoment, RecordStore.put_eq, hwrite]
    exact ⟨_, _, rfl⟩
  obtain ⟨written, s', hcommit⟩ := hcommit
  rw [patch_of_key hkey]
  exact ⟨written, s', (bind_of_ok hexisting).trans hcommit⟩

/-- The longest path that a patch may take, and the shortest one that loses the record. -/
theorem readable_written_sample :
    let clock : Clock := { wall := 1000000000, monotonic := 0 }
    let s : RecordStore Memory := ⟨Memory.empty, 60000000000⟩
    Row.million ≤ s.retention ∧
      (∃ written s', patch clock sampleUploadKey (deepPath 126) Table.empty s = (.ok written, s') ∧
        written.Readable clock s') ∧
      (∃ written s', patch clock sampleUploadKey (deepPath 127) Table.empty s = (.ok written, s') ∧
        written.Lost clock s') := by
  intro clock s
  have hretention : Row.million ≤ s.retention := by decide
  have hpatch := fun path => exists_patch_eq_ok (by decide) downloadKeyOf_sample path Table.empty
    (show clock.monotonic + 60000000000 < Memory.clockLimit by decide)
  obtain ⟨written, s₁, hwritten⟩ := hpatch (deepPath 126)
  obtain ⟨lost, s₂, hlost⟩ := hpatch (deepPath 127)
  refine ⟨hretention, ⟨written, s₁, hwritten, ?_⟩, ⟨lost, s₂, hlost, ?_⟩⟩
  · exact ((readable_written hretention _ _ _ _).2 _ hwritten).1 isHarmless_deepPath
  · exact ((readable_written hretention _ _ _ _).2 _ hlost).2 not_isHarmless_deepPath

theorem not_readable_deep_patch :
    ¬ ∀ (clock : Clock) (uploadKey path : Text) (params : Params) (written : Written)
      (s s' : RecordStore Memory), s.backend = Memory.empty → Row.million ≤ s.retention →
      patch clock uploadKey path params s = (.ok written, s') →
      (RecordStore.get clock written.downloadKey s').1 = .ok written.record := by
  intro hreadable
  have hretention : Row.million ≤ 60000000000 := by decide
  obtain ⟨written, s', hpatch⟩ := exists_patch_eq_ok
    (show ({ wall := 1000000000, monotonic := 0 } : Clock).moment?.isSome = true by decide)
    downloadKeyOf_sample (deepPath 127) Table.empty
    (show 0 + 60000000000 < Memory.clockLimit by decide)
  have hget := hreadable _ _ _ _ written _ s' rfl hretention hpatch
  obtain ⟨reason, hlost⟩ := (lost_of_patch hretention hpatch not_isHarmless_deepPath).get
  rw [hget] at hlost
  exact absurd hlost (by simp)

end Service

end DeadDrop
