import DeadDrop.Proofs.Server.Start
import DeadDrop.Proofs.Service.Errors
import DeadDrop.Proofs.Service.Readable
import DeadDrop.Proofs.Stats.Window
import DeadDrop.Proofs.Time.Duration

/-!
# Retention times and writes

A configuration is asked for a retention time that can be read, and that is all: any number of
seconds from one to the last of 64 bits. Whether a write can keep a record for so long is up to the
store. The memory keeps an expiry on the monotonic clock, whose seconds have 63 bits, and the rows
take a time to live whose milliseconds have 64. A site whose retention time is longer starts all the
same, and then no upload succeeds.
-/

namespace DeadDrop

theorem Config.retention_eq_ok {c : Config} {seconds : Nat} (h : c.retention = .ok seconds) :
    0 < seconds ∧ seconds < Duration.limit := by
  unfold Config.retention at h
  split at h
  · cases h
  · cases h
    rename_i hparse
    obtain ⟨_, -, -, hpos, hfits⟩ := Duration.exists_terms_of_parse hparse
    exact ⟨hpos, hfits⟩

namespace Server

section OpenStorage

variable {c : Config} {disk disk' : Disk} {backend : Storage}

theorem openStorage_memory (h : openStorage c disk = (.ok backend, disk'))
    (hmemory : c.inMemory = true) : backend = .memory .empty := by
  rw [openStorage, if_pos hmemory] at h
  exact (Outcome.ok.inj (congrArg Prod.fst h)).symm

theorem openStorage_rows (h : openStorage c disk = (.ok backend, disk'))
    (hrows : c.inMemory = false) : ∃ rows, backend = .rows rows := by
  rw [openStorage, if_neg (by simp [hrows])] at h
  obtain ⟨rows, _, _, hpure⟩ := Action.bind_eq_ok h
  exact ⟨rows, (Outcome.ok.inj (congrArg Prod.fst hpure)).symm⟩

end OpenStorage

end Server

namespace Service

section Upload

variable {clock : Clock} {uploadKey key : Text} {moment : Moment}

/-- What an upload comes to is what the write of its record comes to. -/
theorem upload_outcome (hkey : downloadKeyOf uploadKey = .ok key)
    (hmoment : clock.moment? = some moment) (params : Params) (s : RecordStore Storage) :
    (upload clock uploadKey params s).1 =
      ((Backend.write clock key ((Record.ofParams params).stamp moment).toBytes
          (some s.retention) s.backend).1.mapError fun fault => .storage fault.message).bind
        fun _ => .ok { downloadKey := key, record := (Record.ofParams params).stamp moment } := by
  rw [upload_of_key hkey, commit_of_moment hmoment, RecordStore.put_eq]

theorem upload_memory (hkey : downloadKeyOf uploadKey = .ok key)
    (hmoment : clock.moment? = some moment) (params : Params) (m : Memory) (retention : Nat) :
    (upload clock uploadKey params (⟨.memory m, retention⟩ : RecordStore Storage)).1 =
      if clock.monotonic + retention < Memory.clockLimit then
        .ok { downloadKey := key, record := (Record.ofParams params).stamp moment }
      else .abort := by
  rw [upload_outcome hkey hmoment]
  change (Outcome.mapError _ (Memory.write clock key _ (some retention) m).1).bind _ = _
  unfold Memory.write
  simp only
  split <;> rfl

theorem upload_rows (hkey : downloadKeyOf uploadKey = .ok key)
    (hmoment : clock.moment? = some moment) (params : Params) (rows : Rows) (retention : Nat) :
    (upload clock uploadKey params (⟨.rows rows, retention⟩ : RecordStore Storage)).1 =
      if retention / Row.million < Row.millisLimit then
        .ok { downloadKey := key, record := (Record.ofParams params).stamp moment }
      else .error (.storage StorageFault.ttlOutOfRange.message) := by
  obtain ⟨hepoch, hmillis⟩ := Clock.millis_lt_of_moment? (Option.isSome_iff_exists.2 ⟨_, hmoment⟩)
  have hnow : Row.millisOf clock = .ok (Rows.millis clock) := by
    unfold Rows.millis at hmillis
    rw [Row.millisOf, if_neg hepoch.not_gt]
    exact if_pos (Nat.lt_of_succ_lt hmillis)
  rw [upload_outcome hkey hmoment]
  change (Outcome.mapError _ (Rows.write clock key _ (some retention) rows).1).bind _ = _
  by_cases hmillis : retention / Row.million < Row.millisLimit
  · simp only [Rows.write, Row.withTtl, hnow, if_pos hmillis]
    rfl
  · simp only [Rows.write, Row.withTtl, if_neg hmillis]
    rfl

end Upload

end Service

namespace Server

/-- The milliseconds of whole seconds. -/
theorem millis_storeOf (backend : Storage) (seconds : Nat) :
    (storeOf backend seconds).retention / Row.million = seconds * 1000 := by
  have hbillion : 1000 * Row.million = Moment.billion := rfl
  change seconds * Moment.billion / Row.million = seconds * 1000
  rw [← hbillion, ← Nat.mul_assoc, Nat.mul_div_cancel _ (by decide)]

/-- **The length of the retention time decides whether a started site takes uploads**, to the second
where they stop: in memory, where the record would outlive the monotonic clock, and on rows, where
the milliseconds do not fit 64 bits. -/
theorem upload_of_started {clock₀ clock : Clock} {c : Config} {site : Http.Site Storage}
    {disk disk' : Disk} {uploadKey : Text} (hstart : start clock₀ c disk = (.ok site, disk'))
    (hepoch : 0 ≤ clock.wall) (hend : clock.wall < Clock.calendarEnd)
    (hkey : Credential.validate uploadKey = .ok ()) (params : Params) :
    ∃ seconds key moment, c.retention = .ok seconds ∧ 0 < seconds ∧ seconds < Duration.limit ∧
      Service.downloadKeyOf uploadKey = .ok key ∧ clock.moment? = some moment ∧
      (Service.upload clock uploadKey params site.store).1 =
        if c.inMemory then
          if clock.monotonic + seconds * Moment.billion < Memory.clockLimit then
            .ok { downloadKey := key, record := (Record.ofParams params).stamp moment }
          else .abort
        else
          if seconds * 1000 < Row.millisLimit then
            .ok { downloadKey := key, record := (Record.ofParams params).stamp moment }
          else .error (.storage StorageFault.ttlOutOfRange.message) := by
  obtain ⟨seconds, backend, limiter, moment₀, hretention, hopen, rfl⟩ := start_eq_ok hstart
  obtain ⟨hpos, hlimit⟩ := Config.retention_eq_ok hretention
  obtain ⟨key, hkey⟩ := Service.exists_downloadKey hkey
  obtain ⟨moment, hmoment⟩ := Option.isSome_iff_exists.1 (Stats.isSome_moment? hepoch hend)
  refine ⟨seconds, key, moment, hretention, hpos, hlimit, hkey, hmoment, ?_⟩
  change (Service.upload clock uploadKey params (storeOf backend seconds)).1 = _
  cases hmode : c.inMemory with
  | true =>
    obtain rfl := openStorage_memory hopen hmode
    rw [if_pos rfl]
    exact Service.upload_memory hkey hmoment params .empty _
  | false =>
    obtain ⟨rows, rfl⟩ := openStorage_rows hopen hmode
    have hupload := Service.upload_rows hkey hmoment params rows
      (storeOf (.rows rows) seconds).retention
    rw [millis_storeOf] at hupload
    rw [if_neg Bool.false_ne_true]
    exact hupload

/-- The defaults with another retention time, in memory or not. -/
def keepingConfig (persistFor : String) (inMemory : Bool) : Config :=
  { Config.defaults with persistFor := persistFor.toList, inMemory }

theorem exists_start_keepingConfig (persistFor : String) (inMemory : Bool) (seconds : Nat)
    {backend : Storage} {disk disk' : Disk}
    (hretention : (keepingConfig persistFor inMemory).retention = .ok seconds)
    (hopen : openStorage (keepingConfig persistFor inMemory) disk = (.ok backend, disk')) :
    ∃ site, start sampleClock (keepingConfig persistFor inMemory) disk = (.ok site, disk') ∧
      site.store = storeOf backend seconds := by
  obtain ⟨limiter, hlimiter⟩ := Limiter.exists_make_of_supports (by decide +kernel)
    (Binary64.ofRatio_fits false 10 Nat.one_pos) (by decide : Config.defaults.burst ≠ 0)
    (by decide +kernel)
  have hmake : Limiter.make (keepingConfig persistFor inMemory).perSecond
      (keepingConfig persistFor inMemory).burst = .ok limiter := hlimiter
  refine ⟨.started (storeOf backend seconds) limiter
    (keepingConfig persistFor inMemory).maxRequestSize ⟨1700000000, 0⟩, ?_, rfl⟩
  rw [start_eq hretention hopen moment?_sampleClock, hmake]
  rfl

theorem upload_of_started_sample :
    ∃ site written, start sampleClock (keepingConfig "1d" true) .empty = (.ok site, .empty) ∧
      (Service.upload sampleClock Service.sampleUploadKey .empty site.store).1 = .ok written := by
  have hday : (keepingConfig "1d" true).retention = .ok 86400 := by decide +kernel
  have hopen : openStorage (keepingConfig "1d" true) .empty = (.ok (.memory .empty), .empty) := rfl
  obtain ⟨site, hstart, -⟩ := exists_start_keepingConfig "1d" true 86400 hday hopen
  obtain ⟨seconds, key, moment, hretention, -, -, -, -, hupload⟩ :=
    upload_of_started hstart (by decide : 0 ≤ sampleClock.wall) (by decide)
      (by decide +kernel : Credential.validate Service.sampleUploadKey = .ok ()) .empty
  obtain rfl : 86400 = seconds := Except.ok.inj (hday.symm.trans hretention)
  have hmode : (keepingConfig "1d" true).inMemory = true := rfl
  rw [if_pos hmode, if_pos (by decide +kernel)] at hupload
  exact ⟨site, _, hstart, hupload⟩

/-- The longest retention time that can be read. The configuration is sound and the site starts, in
memory and on rows, and an upload aborts on the one and fails on the other. -/
theorem not_upload_of_started_longest :
    ((keepingConfig "18446744073709551615s" true).validate false = .ok [] ∧
      ∃ site, start sampleClock (keepingConfig "18446744073709551615s" true) .empty =
          (.ok site, .empty) ∧
        (Service.upload sampleClock Service.sampleUploadKey .empty site.store).1 = .abort) ∧
    ((keepingConfig "18446744073709551615s" false).validate false = .ok [] ∧
      ∃ site disk, start sampleClock (keepingConfig "18446744073709551615s" false) .empty =
          (.ok site, disk) ∧
        (Service.upload sampleClock Service.sampleUploadKey .empty site.store).1 =
          .error (.storage StorageFault.ttlOutOfRange.message)) := by
  have hkey := Service.downloadKeyOf_sample
  refine ⟨⟨by decide +kernel, ?_⟩, ⟨by decide +kernel, ?_⟩⟩
  · have hopen : openStorage (keepingConfig "18446744073709551615s" true) .empty =
        (.ok (.memory .empty), .empty) := rfl
    obtain ⟨site, hstart, hstore⟩ := exists_start_keepingConfig "18446744073709551615s" true
      18446744073709551615 (by decide +kernel) hopen
    refine ⟨site, hstart, ?_⟩
    rw [hstore, storeOf, Service.upload_memory hkey moment?_sampleClock, if_neg (by decide +kernel)]
  · have hopen : ∃ disk, openStorage (keepingConfig "18446744073709551615s" false) .empty =
        (.ok (.rows .empty), disk) := ⟨_, rfl⟩
    obtain ⟨disk, hopen⟩ := hopen
    obtain ⟨site, hstart, hstore⟩ := exists_start_keepingConfig "18446744073709551615s" false
      18446744073709551615 (by decide +kernel) hopen
    refine ⟨site, disk, hstart, ?_⟩
    rw [hstore, storeOf, Service.upload_rows hkey moment?_sampleClock, if_neg (by decide +kernel)]

end Server

end DeadDrop
