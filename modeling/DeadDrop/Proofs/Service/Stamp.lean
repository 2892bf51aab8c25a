import DeadDrop.Proofs.Service.Readable
import DeadDrop.Proofs.Time.Moment

/-!
# Stamps

A stamp is the last thing that a write does to a record, so whatever has been sent for the reserved field,
and wherever a path has led, the root holds the text of the moment. This text is read back as the moment
it was made from, to the second. All other fields of the root are left.
-/

namespace DeadDrop

theorem Clock.eq_of_moment? {clock : Clock} {moment : Moment} (h : clock.moment? = some moment) :
    Moment.ofUnixNanos clock.wall = moment ∧ moment.IsRepresentable := by
  obtain ⟨⟨-, hrepresentable⟩, hmoment⟩ := Option.ite_none_right_eq_some.1 h
  obtain rfl := Option.some.inj hmoment
  exact ⟨rfl, hrepresentable⟩

namespace Record

theorem get?_stamp_self (r : Record) (moment : Moment) :
    (r.stamp moment).get? timestampName = some (.leaf moment.toSecondsText) :=
  Assoc.get?_insert_self ..

theorem get?_stamp_of_ne (r : Record) (moment : Moment) {name : Text} (h : name ≠ timestampName) :
    (r.stamp moment).get? name = r.get? name :=
  Assoc.get?_insert_of_ne h _ _

theorem timestamp?_stamp (r : Record) {moment : Moment} (hm : moment.IsRepresentable)
    (hyears : moment.InYears 0 9999) : (r.stamp moment).timestamp? = some moment.truncate := by
  rw [timestamp?, get?_stamp_self]
  exact Moment.ofText?_toSecondsText hm hyears

end Record

namespace Service

variable {σ : Type} [Backend σ]

/-- Every write that succeeds has stamped a record with the moment that the clock shows. -/
theorem exists_stamp_of_write {clock : Clock} {uploadKey path : Text} {params : Params}
    {written : Written} {s s' : RecordStore σ}
    (h : upload clock uploadKey params s = (.ok written, s') ∨
      patch clock uploadKey path params s = (.ok written, s')) :
    ∃ (r : Record) (moment : Moment), clock.moment? = some moment ∧
      written.record = r.stamp moment := by
  rcases h with hupload | hpatch
  · obtain ⟨key, -, hcommit⟩ := upload_eq_ok hupload
    obtain ⟨moment, hmoment, rfl, -⟩ := commit_eq_ok hcommit
    exact ⟨_, moment, hmoment, rfl⟩
  · obtain ⟨key, existing, s₁, -, -, hcommit⟩ := patch_eq_ok hpatch
    obtain ⟨moment, hmoment, rfl, -⟩ := commit_eq_ok hcommit
    exact ⟨_, moment, hmoment, rfl⟩

/-- **Stamps.** A record that is stamped with a moment of the years 0 to 9999 shows it to the second, in
20 characters, and has all its other fields. So the record of every write that succeeds in the years 1970
to 9999 shows the second of the write. -/
theorem stamps_read_back :
    (∀ (r : Record) (moment : Moment), moment.IsRepresentable → moment.InYears 0 9999 →
      (r.stamp moment).timestamp? = some moment.truncate ∧
      (∀ name, name ≠ Record.timestampName → (r.stamp moment).get? name = r.get? name) ∧
      ∃ text, (r.stamp moment).get? Record.timestampName = some (.leaf text) ∧
        text.length = 20 ∧ Moment.HasForm "YYYY-MM-DDThh:mm:ssZ".toList text) ∧
    ∀ (clock : Clock) (uploadKey path : Text) (params : Params) (written : Written)
      (s s' : RecordStore σ),
      upload clock uploadKey params s = (.ok written, s') ∨
        patch clock uploadKey path params s = (.ok written, s') →
      (Moment.ofUnixNanos clock.wall).InYears 1970 9999 →
      written.record.timestamp? = some (Moment.ofUnixNanos clock.wall).truncate := by
  constructor
  · intro r moment hm hyears
    have hform := Moment.hasForm_toSecondsText hm hyears
    refine ⟨r.timestamp?_stamp hm hyears, fun name => r.get?_stamp_of_ne moment, ?_⟩
    exact ⟨_, r.get?_stamp_self moment, hform.length_eq.symm, hform⟩
  · intro clock uploadKey path params written s s' hwrite hyears
    obtain ⟨r, moment, hmoment, hrecord⟩ := exists_stamp_of_write hwrite
    obtain ⟨rfl, hrepresentable⟩ := Clock.eq_of_moment? hmoment
    have hcommon : (Moment.ofUnixNanos clock.wall).InYears 0 9999 :=
      ⟨Int.le_trans (by decide) hyears.1, hyears.2⟩
    rw [hrecord]
    exact r.timestamp?_stamp hrepresentable hcommon

/-- Half a second into the leap second of 2016, and a patch that aims at the reserved field in the last
second of a leap day. -/
theorem stamps_read_back_sample :
    let leapSecond : Moment := { seconds := 1483228799, nanos := 1500000000 }
    let clock : Clock := { wall := 951868799999999999, monotonic := 0 }
    let params : Params := Table.empty.insert Record.timestampName "never".toList
    let s : RecordStore Memory := ⟨Memory.empty, 60000000000⟩
    (leapSecond.IsRepresentable ∧ leapSecond.InYears 0 9999 ∧
      (Record.empty.stamp leapSecond).timestamp? = some { leapSecond with nanos := 1000000000 }) ∧
    (∃ written s',
      patch clock sampleUploadKey "timestamp/timestamp".toList params s = (.ok written, s') ∧
        (Moment.ofUnixNanos clock.wall).InYears 1970 9999 ∧
        written.record.timestamp? = some { seconds := 951868799, nanos := 0 }) := by
  intro leapSecond clock params s
  have hleap : leapSecond.IsRepresentable := by decide
  have hleapYear : leapSecond.InYears 0 9999 := by decide
  have hyears : (Moment.ofUnixNanos clock.wall).InYears 1970 9999 := by decide
  obtain ⟨hstamp, hwrite⟩ := @stamps_read_back Memory _
  have hclock : clock.monotonic + 60000000000 < Memory.clockLimit := by decide
  obtain ⟨written, s', hpatch⟩ := exists_patch_eq_ok (by decide) downloadKeyOf_sample
    "timestamp/timestamp".toList params hclock
  exact ⟨⟨hleap, hleapYear, (hstamp Record.empty leapSecond hleap hleapYear).1⟩,
    written, s', hpatch, hyears, hwrite clock _ _ params written s s' (.inr hpatch) hyears⟩

end Service

end DeadDrop
