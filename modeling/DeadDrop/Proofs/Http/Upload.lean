import DeadDrop.Proofs.Http.FieldUrl
import DeadDrop.Proofs.Http.Spelling
import DeadDrop.Proofs.Service.Keys
import DeadDrop.Proofs.Text.Html

/-!
# An upload stores its query

What an upload leaves under the download key is made of the query and of the time, and of nothing
that was there before: each name of the query with its first value, escaped, and the stamp in the
reserved field (`HoldsQuery`, which no two mappings satisfy). The escapes can be read back, so the
client's values are all there, but for the one that was sent for the reserved field.

A flat record is never too deep for the reader. So while it lasts, a download of the record gives a
JSON object with these fields, and the object reads as them (`ReadsBack`).
-/

namespace DeadDrop

/-! ### Keys -/

namespace Credential

variable {key : Text}

theorem IsUploadKey.isKey (h : IsUploadKey key) : IsKey key := by
  obtain ⟨digits, ⟨hkey, hdigits⟩, hlength⟩ := h
  have hall : ∀ c ∈ digits, (Hex.digit? c).isSome :=
    fun c hc => Hex.isSome_digit?_iff.2 (hdigits c hc)
  rcases hkey with rfl | rfl
  · exact ⟨[], by simp, key, rfl, hlength, hall⟩
  · exact ⟨uploadTag, by simp, digits, rfl, hlength, hall⟩

theorem isKey_encode {b : Bytes} (h : b.length = 32) : IsKey (Hex.encode b) := by
  have hlower : ∀ c ∈ Hex.lowerDigits, c ∈ Hex.digits := List.forall_iff_forall_mem.1 (by decide)
  refine ⟨[], by simp, Hex.encode b, rfl, ?_, fun c hc => ?_⟩
  · rw [Hex.length_encode, h]
  · exact Hex.isSome_digit?_iff.2 (hlower c (Hex.mem_lowerDigits_of_mem_encode hc))

theorem IsKey.decode (h : IsKey key) : Percent.decode (Text.toUtf8 key) = Text.toUtf8 key := by
  obtain ⟨tag, htag, digits, rfl, -, hdigits⟩ := h
  have htags : ∀ tag ∈ [[], uploadTag, downloadTag], Percent.sign ∉ Text.toUtf8 tag := by decide
  have hplain : ∀ c ∈ Hex.digits, Percent.sign ∉ String.utf8EncodeChar c :=
    List.forall_iff_forall_mem.1 (by decide)
  refine Percent.decode_of_not_mem fun hsign => ?_
  rw [Text.toUtf8, List.flatMap_append] at hsign
  rcases List.mem_append.1 hsign with hsign | hsign
  · exact htags tag htag hsign
  · obtain ⟨c, hc, hsign⟩ := List.mem_flatMap.1 hsign
    exact hplain c (Hex.isSome_digit?_iff.1 (hdigits c hc)) hsign

end Credential

theorem Service.downloadKeyOf_of_validate {uploadKey : Text}
    (h : Credential.validate uploadKey = .ok ()) :
    downloadKeyOf uploadKey = .ok (Hex.encode
      (Sha256.digest (Text.toUtf8 (Credential.untagUpload uploadKey).lowerCase))) := by
  rw [downloadKeyOf, h]
  simp only [Credential.derive_eq_ok_iff.2 ⟨h, rfl⟩]

namespace Http

open DeadDrop.Action Backend

/-! ### Routes -/

section Routes

variable {request : Request} {key : Text}

theorem route_of_upload {route : Route} (hkey : Credential.IsKey key)
    (hpath : request.uri.path = "/u/".toList ++ key) (h : request.route? = some route) :
    route = .upload key := by
  obtain ⟨-, raw, hraw, hdecode⟩ := exists_of_route? h
  rw [hpath, Route.ofPath?_upload hkey] at hraw
  obtain rfl := Option.some.inj hraw
  rw [Route.decode, Route.decodeCapture_of_literal hkey.decode] at hdecode
  exact (Except.ok.inj hdecode).symm

theorem route?_json (hkey : Credential.IsKey key) (hmethod : request.method = .get)
    (hpath : request.uri.path = "/d/".toList ++ key ++ "/json".toList) :
    request.route? = some (.downloadJson key) := by
  have hdecode : (Route.downloadJson key).decode = .ok (.downloadJson key) := by
    rw [Route.decode, Route.decodeCapture_of_literal hkey.decode]
    rfl
  refine route?_of_decode (isRead_of_get hmethod) ?_ hdecode
  rw [hpath, Route.ofPath?_json hkey]

end Routes

/-! ### Fields -/

/-- The JSON object of a flat mapping. -/
def fieldsBody (fields : Params) : Text :=
  Json.object (fields.entries.map fun entry => (entry.1, Json.quote entry.2))

theorem toBytes_ofParams (fields : Params) :
    (Record.ofParams fields).toBytes = Text.toUtf8 (fieldsBody fields) := by
  have hmembers : ∀ entries : List (Text × Text),
      membersJson (entries.map fun entry => (entry.1, Value.leaf entry.2)) =
        Text.join [','] ((entries.map fun entry => (entry.1, Json.quote entry.2)).map
          fun member => Json.quote member.1 ++ ':' :: member.2) := by
    intro entries
    induction entries with
    | nil => rfl
    | cons entry rest ih =>
      rw [List.map_cons, membersJson, ih]
      cases rest with
      | nil => simp [Value.toJson, Text.join]
      | cons next rest => simp [Value.toJson, Text.join]
  rw [Record.toBytes, Record.toJson, Value.toJson]
  change Text.toUtf8 ('\x7b' :: membersJson (fields.entries.map fun entry => _) ++ ['\x7d']) = _
  rw [hmembers]
  rfl

theorem ofBytes?_fieldsBody (fields : Params) :
    Record.ofBytes? (Text.toUtf8 (fieldsBody fields)) = some (Record.ofParams fields) := by
  rw [← toBytes_ofParams, Record.ofBytes?_toBytes, if_pos]
  rw [Record.depth_ofParams]
  decide

/-- The fields are those of a query that is uploaded at a moment: the names of the query and the
reserved one, each with its first value, and the reserved one with the stamp. -/
structure HoldsQuery (uri : Uri) (moment : Moment) (fields : Params) : Prop where
  keys : ∀ name, name ∈ fields.entries.map Prod.fst ↔
    name = Record.timestampName ∨ name ∈ (Form.decode (uri.query.getD [])).map Prod.fst
  first : ∀ name value, firstValue? uri name = some value → name ≠ Record.timestampName →
    ∃ text, fields.get? name = some text ∧ text = Html.escape value ∧ Html.unescape text = value
  stamped : fields.get? Record.timestampName = some moment.toSecondsText

theorem exists_firstValue?_iff {uri : Uri} {name : Text} :
    (∃ value, firstValue? uri name = some value) ↔
      name ∈ (Form.decode (uri.query.getD [])).map Prod.fst := by
  rw [← Option.isSome_iff_exists, firstValue?, Option.isSome_map, List.find?_isSome, List.mem_map]
  simp

theorem holdsQuery_iff {uri : Uri} {moment : Moment} {fields : Params} :
    HoldsQuery uri moment fields ↔ ∀ name, fields.get? name =
      if name = Record.timestampName then some moment.toSecondsText
      else (firstValue? uri name).map Html.escape := by
  constructor
  · intro h name
    split_ifs with hreserved
    · rw [hreserved, h.stamped]
    · cases hvalue : firstValue? uri name with
      | some value =>
        obtain ⟨text, hget, rfl, -⟩ := h.first name value hvalue hreserved
        exact hget
      | none =>
        -- a name that the query does not have is none of the keys
        have habsent : name ∉ fields.entries.map Prod.fst := by
          rw [h.keys, ← exists_firstValue?_iff, hvalue]
          simp [hreserved]
        rw [Table.mem_keys_iff, ← Option.isSome_iff_exists] at habsent
        exact Option.not_isSome_iff_eq_none.1 habsent
  · intro hget
    refine ⟨fun name => ?_, fun name value hvalue hreserved => ?_, ?_⟩
    · rw [Table.mem_keys_iff, hget, ← exists_firstValue?_iff]
      by_cases hreserved : name = Record.timestampName <;> simp [hreserved]
    · refine ⟨Html.escape value, ?_, rfl, Html.unescape_escape value⟩
      rw [hget, if_neg hreserved, hvalue, Option.map_some]
    · rw [hget, if_pos rfl]

/-- The query and the moment tell all the fields. -/
theorem HoldsQuery.unique {uri : Uri} {moment : Moment} {fields fields' : Params}
    (h : HoldsQuery uri moment fields) (h' : HoldsQuery uri moment fields') : fields = fields' :=
  Table.ext_of_get? fun name => (holdsQuery_iff.1 h name).trans (holdsQuery_iff.1 h' name).symm

/-- The fields that an upload makes of a query. -/
def storedFields (uri : Uri) (moment : Moment) : Params :=
  (paramsOf uri).insert Record.timestampName moment.toSecondsText

theorem holdsQuery_storedFields (uri : Uri) (moment : Moment) :
    HoldsQuery uri moment (storedFields uri moment) := by
  refine holdsQuery_iff.2 fun name => ?_
  rw [storedFields, Table.get?_insert, get?_paramsOf]

/-! ### Downloads after an upload -/

def recordUri (downloadKey : Text) : Uri :=
  ⟨"/d/".toList ++ downloadKey ++ "/json".toList, none⟩

variable {σ β : Type} [Backend σ] {live : Clock → Text → σ → β} {readable : Clock → Prop}
  {lasts : Clock → Nat → Clock → Prop} {clock : Clock} {random : Bytes}

/-- In time, a download of the record gives the fields. -/
def ReadsBack (lasts : Clock → Nat → Clock → Prop) (clock : Clock) (downloadKey : Text)
    (fields : Params) (written : Site σ) : Prop :=
  ∀ run later random read,
    AskedInTime lasts clock downloadKey written run later read (recordUri downloadKey) →
    Gives later random read (stateAfter occur run written) (Text.toUtf8 (fieldsBody fields))

/-- An upload puts the fields of its query in the place of what was there. -/
theorem exists_of_uploaded {write : Request} {uploadKey : Text} {response : Response}
    {s s' : Site σ} (hvalid : Credential.validate uploadKey = .ok ())
    (hmethod : write.method ≠ .options) (hpath : write.uri.path = "/u/".toList ++ uploadKey)
    (hanswer : answer clock random write s = (.ok response, s')) (hstatus : response.status = 200) :
    ∃ moment written, clock.moment? = some moment ∧
      Service.Wrote clock uploadKey [] (paramsOf write.uri) written s'.store ∧
      written.record = Record.ofParams (storedFields write.uri moment) := by
  obtain ⟨route, s₁, reply, hroute, -, hserved, -⟩ := exists_of_served hmethod hanswer hstatus
  obtain rfl := route_of_upload (Credential.validate_iff.1 hvalid).isKey hpath hroute
  obtain ⟨written, hupload, -⟩ := onStore_count_eq_ok hserved
  obtain ⟨key, -, hcommit⟩ := Service.upload_eq_ok hupload
  obtain ⟨moment, hmoment, rfl, -⟩ := Service.commit_eq_ok hcommit
  exact ⟨moment, _, hmoment, Service.wrote_of_upload hupload, Record.stamp_ofParams _ _⟩

/-- A download that is let in while a record is shown gives the bytes of the record. -/
theorem gives_of_shows {read : Request} {s : Site σ} {digest b : Bytes} (hdigest : digest.length = 32)
    (hmethod : read.method = .get) (hpath : read.uri.path = (recordUri (Hex.encode digest)).path)
    (hin : LetIn clock read s) (hmoment : clock.moment?.isSome = true)
    (hshows : RecordStore.Shows clock (Hex.encode digest) b s.store) :
    Gives clock random read s b := by
  have hread := route?_json (Credential.isKey_encode hdigest) hmethod hpath
  have hbytes :
      (Service.downloadJson clock (Hex.encode digest) (s.charged clock read).store).1 = .ok b := by
    rw [Service.downloadJson, Credential.normalizeDownload_encode, RecordStore.getBytes_eq]
    change RecordStore.readBytes (Backend.read clock (Hex.encode digest) s.store.backend).1 = _
    rw [hshows]
    rfl
  obtain ⟨s', hserved, -⟩ : ∃ s', onRoute clock random read (.downloadJson (Hex.encode digest))
      (s.charged clock read) = (.ok (.json b), s') ∧ s'.store = _ :=
    onStore_count_of_ok hmoment (Prod.ext hbytes rfl)
  exact gives_of_onRoute hmethod hin hread hserved rfl

theorem readsBack_of_lastingView (hview : LastingView live readable lasts) {write : Request}
    {uploadKey downloadKey : Text} {response : Response} {s s' : Site σ}
    (hvalid : Credential.validate uploadKey = .ok ()) (hmethod : write.method ≠ .options)
    (hpath : write.uri.path = "/u/".toList ++ uploadKey)
    (hkey : Service.downloadKeyOf uploadKey = .ok downloadKey)
    (hanswer : answer clock random write s = (.ok response, s')) (hstatus : response.status = 200) :
    ∃ moment, clock.moment? = some moment ∧
      ReadsBack lasts clock downloadKey (storedFields write.uri moment) s' := by
  obtain ⟨moment, written, hmoment, hwrote, hrecord⟩ :=
    exists_of_uploaded hvalid hmethod hpath hanswer hstatus
  obtain rfl := Except.ok.inj (hkey.symm.trans hwrote.key)
  refine ⟨moment, hmoment, fun run later random' read hasked => ?_⟩
  have hshows := shows_stateAfter hview.toLiveView (hview.readable_of_lasts hasked.lasts)
    hasked.spared (hwrote.shows hview hasked.lasts)
  have hpath' := hasked.path
  have hdigest := Except.ok.inj (hkey.symm.trans (Service.downloadKeyOf_of_validate hvalid))
  rw [hrecord, toBytes_ofParams, hdigest] at hshows
  rw [hdigest] at hpath'
  exact gives_of_shows (Sha256.length_digest _) hasked.method hpath' hasked.letIn hasked.moment
    hshows

/-- **An upload stores its query.** To a valid key and a query belong a download key and, for each
moment, a mapping of the names in the query to their first values. Whatever a site holds, in memory
or in rows: after an upload that is answered with status 200, for as long as the record lasts, a
`GET` of the record gives the mapping of the moment of the upload as a JSON object. -/
theorem upload_stores_query {write : Request} {uploadKey : Text}
    (hvalid : Credential.validate uploadKey = .ok ()) (hmethod : write.method ≠ .options)
    (hpath : write.uri.path = "/u/".toList ++ uploadKey) :
    ∃ downloadKey, Service.downloadKeyOf uploadKey = .ok downloadKey ∧
      ∃ fields : Moment → Params,
        (∀ moment, HoldsQuery write.uri moment (fields moment) ∧
          Record.ofBytes? (Text.toUtf8 (fieldsBody (fields moment))) =
            some (Record.ofParams (fields moment))) ∧
        (∀ (clock : Clock) (random : Bytes) (s s' : Site Memory) (response : Response),
          answer clock random write s = (.ok response, s') → response.status = 200 →
          ∃ moment, clock.moment? = some moment ∧
            ReadsBack Memory.Lasts clock downloadKey (fields moment) s') ∧
        (∀ (clock : Clock) (random : Bytes) (s s' : Site Rows) (response : Response),
          answer clock random write s = (.ok response, s') → response.status = 200 →
          ∃ moment, clock.moment? = some moment ∧
            ReadsBack Rows.Lasts clock downloadKey (fields moment) s') := by
  have hkey := Service.downloadKeyOf_of_validate hvalid
  refine ⟨_, hkey, storedFields write.uri, fun moment => ?_, ?_, ?_⟩
  · exact ⟨holdsQuery_storedFields write.uri moment, ofBytes?_fieldsBody _⟩
  · exact fun _ _ _ _ _ => readsBack_of_lastingView Memory.lastingView hvalid hmethod hpath hkey
  · exact fun _ _ _ _ _ => readsBack_of_lastingView Rows.lastingView hvalid hmethod hpath hkey

/-! ### Samples -/

/-- An upload of a name with two values, an empty name, a value for the reserved field, and a name
without a value. -/
def tangledWrite : Request :=
  sampleGet ("/u/" ++ String.ofList Service.sampleUploadKey) "a=%26lt%3B%3C&a=2&=&timestamp=x&b"

def tangledRead : Request where
  method := .get
  uri := recordUri Service.sampleDownloadKey
  headers := []
  peer := none

theorem upload_stores_query_sample :
    let clock : Clock := ⟨sampleWall, 0⟩
    let later := clock.advance 59999999999
    let sweep : Occurrence Memory := .store fun store => (RecordStore.purge later store).2
    let body := "\x7b\"\":\"\",\"a\":\"&amp;lt;&lt;\",\"b\":\"\"," ++
      "\"timestamp\":\"2023-11-14T22:13:20Z\"\x7d"
    Credential.validate Service.sampleUploadKey = .ok () ∧
      tangledWrite.uri.path = "/u/".toList ++ Service.sampleUploadKey ∧
      ∃ response s, answer clock [] tangledWrite sampleSite = (.ok response, s) ∧
        response.status = 200 ∧
        Gives later [] tangledRead (stateAfter occur [⟨later, sweep⟩] s)
          (Text.toUtf8 body.toList) := by
  intro clock later sweep body
  have hvalid : Credential.validate Service.sampleUploadKey = .ok () := by decide +kernel
  have hpath : tangledWrite.uri.path = "/u/".toList ++ Service.sampleUploadKey := by decide +kernel
  obtain ⟨response, s, hanswer, hstatus, hretention⟩ :=
    @exists_of_sampleSite clock tangledWrite (by decide +kernel)
  refine ⟨hvalid, hpath, response, s, hanswer, hstatus, ?_⟩
  obtain ⟨downloadKey, hkey, fields, hfields, hmemory, -⟩ :=
    upload_stores_query hvalid (by decide) hpath
  obtain rfl := Except.ok.inj (Service.downloadKeyOf_sample.symm.trans hkey)
  obtain ⟨moment, hmoment, hback⟩ := hmemory clock [] sampleSite s response hanswer hstatus
  have hbody : fieldsBody (storedFields tangledWrite.uri moment) = body.toList := by
    have hshown : clock.moment?.map
        (fun moment => fieldsBody (storedFields tangledWrite.uri moment)) = some body.toList := by
      decide +kernel
    rw [hmoment] at hshown
    exact Option.some.inj hshown
  rw [(hfields moment).1.unique (holdsQuery_storedFields _ _), ReadsBack, hbody] at hback
  have hspared : ∀ t ∈ [(⟨later, sweep⟩ : Timed (Occurrence Memory))],
      t.clock ≤ later ∧ t.call.Spares later Service.sampleDownloadKey := by
    intro t ht
    obtain rfl := List.mem_singleton.1 ht
    exact ⟨by decide, spares_purge Memory.liveView (by decide) trivial _⟩
  exact hback _ later [] tangledRead
    (@askedInTime_get clock later s _ _ hretention (by decide) (by decide) hspared _)

end Http

end DeadDrop
