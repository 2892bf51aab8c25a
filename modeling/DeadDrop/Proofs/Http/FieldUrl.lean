import DeadDrop.Proofs.Http.Rejection
import DeadDrop.Proofs.Http.Target
import DeadDrop.Proofs.Service.Lasting

/-!
# The URLs that a write gives out

A write is answered with a URL for every field that its query names. While the record lasts, a `GET`
of the URL's path gives the first value that the query has for the name, in the form in which it has
been stored. Whatever else the site is asked for in between makes no difference, as long as nothing
else writes or deletes the record: what a read of the key would give is an invariant of such a run
(`shows_stateAfter`).

The reserved field of the root is named among the others, and its URL gives the time of the write. A
URL is the text of its parts as they are, so a name leads to its field only if it means nothing else
in a URL (`Addressable`).
-/

namespace DeadDrop.Http

open DeadDrop.Action Backend
open RecordStore (Shows)
open Service (Wrote)

/-! ### The response to a write -/

/-- The upload key and the path of a route that writes. -/
def Route.writes? : Route → Option (Text × Text)
  | .upload key => some (key, [])
  | .patch key path => some (key, path)
  | _ => none

/-- The URLs in the response to a write, each with the name of its field. -/
def parameterUrls (host downloadKey path : Text) (params : Params) : List (Text × Text) :=
  params.entries.map fun entry => (entry.1, fieldUrl host downloadKey path entry.1)

theorem writtenBody_eq (host downloadKey path : Text) (params : Params) :
    writtenBody host downloadKey path params = Json.object [
      ("message".toList, Json.quote "Data uploaded successfully".toList),
      ("download_url".toList, Json.quote (recordUrl host downloadKey)),
      ("parameter_urls".toList, Json.object ((parameterUrls host downloadKey path params).map
        fun entry => (entry.1, Json.quote entry.2)))] := by
  rw [parameterUrls, List.map_map]
  rfl

/-- The response has a URL for each name of the query. -/
theorem mem_parameterUrls_iff {host downloadKey path name url : Text} {uri : Uri} :
    (name, url) ∈ parameterUrls host downloadKey path (paramsOf uri) ↔
      (∃ value, firstValue? uri name = some value) ∧ url = fieldUrl host downloadKey path name := by
  have hnamed : (∃ value, firstValue? uri name = some value) ↔
      ∃ text, (name, text) ∈ (paramsOf uri).entries := by
    simp only [← Table.get?_eq_some_iff, get?_paramsOf, Option.map_eq_some_iff]
    exact ⟨fun ⟨value, hvalue⟩ => ⟨_, value, hvalue, rfl⟩,
      fun ⟨_, value, hvalue, _⟩ => ⟨value, hvalue⟩⟩
  rw [hnamed, parameterUrls, List.mem_map]
  constructor
  · rintro ⟨entry, hentry, heq⟩
    obtain ⟨rfl, rfl⟩ := Prod.mk.inj heq
    exact ⟨⟨entry.2, hentry⟩, rfl⟩
  · rintro ⟨⟨text, hentry⟩, rfl⟩
    exact ⟨(name, text), hentry, rfl⟩

variable {σ β : Type} [Backend σ] {live : Clock → Text → σ → β} {readable : Clock → Prop}
  {lasts : Clock → Nat → Clock → Prop} {clock later : Clock} {random : Bytes}
  {uploadKey key path : Text}

theorem exists_wrote {write : Request} {route : Route} {reply : Response} {s s' : Site σ}
    (hwrites : route.writes? = some (uploadKey, path))
    (h : onRoute clock random write route s = (.ok reply, s')) :
    ∃ written, Wrote clock uploadKey path (paramsOf write.uri) written s'.store ∧
      reply.body =
        Text.toUtf8 (writtenBody write.host written.downloadKey path (paramsOf write.uri)) := by
  cases route with
  | upload key =>
    obtain ⟨rfl, rfl⟩ := Prod.mk.inj (Option.some.inj hwrites)
    obtain ⟨written, haction, rfl⟩ := onStore_count_eq_ok h
    exact ⟨written, Service.wrote_of_upload haction, rfl⟩
  | patch key path' =>
    obtain ⟨rfl, rfl⟩ := Prod.mk.inj (Option.some.inj hwrites)
    obtain ⟨written, haction, rfl⟩ := onStore_count_eq_ok h
    exact ⟨written, Service.wrote_of_patch haction, rfl⟩
  | keyPair | health | stats | downloadJson | downloadPlain | downloadDecoded | delete =>
    cases hwrites

/-- No slash stands in front of the path of a write. -/
theorem head?_of_writes {write : Request} {route : Route} (hroute : write.route? = some route)
    (hwrites : route.writes? = some (uploadKey, path)) : path.head? ≠ some '/' := by
  cases route with
  | upload key =>
    obtain ⟨rfl, rfl⟩ := Prod.mk.inj (Option.some.inj hwrites)
    simp
  | patch key path' =>
    obtain ⟨rfl, rfl⟩ := Prod.mk.inj (Option.some.inj hwrites)
    obtain ⟨-, raw, -, hdecode⟩ := exists_of_route? hroute
    exact Route.head?_of_decode hdecode
  | keyPair | health | stats | downloadJson | downloadPlain | downloadDecoded | delete =>
    cases hwrites

/-! ### What happens in between -/

/-- Nothing that happens is seen by a later read of the key: no request writes or deletes its record,
and whatever else happens to the store leaves what the read would give. -/
def Occurrence.Spares (later : Clock) (key : Text) : Occurrence σ → Prop
  | .request _ asked => ∀ call, asked.asks? = some call → call.edits? ≠ some key
  | .store change => ∀ store : RecordStore σ,
    (Backend.read later key (change store).backend).1 = (Backend.read later key store.backend).1

theorem spares_purge (hview : LiveView live readable) (hle : clock ≤ later)
    (hreadable : readable later) (key : Text) :
    Occurrence.Spares later key (.store fun store : RecordStore σ =>
      (RecordStore.purge clock store).2) :=
  fun store => hview.read_eq hle hreadable (hview.keeps_sweep clock key store.backend)

theorem shows_occur (hview : LiveView live readable) (hreadable : readable later)
    {t : Timed (Occurrence σ)} (hle : t.clock ≤ later) (hspares : t.call.Spares later key) {b : Bytes}
    {s : Site σ} (h : Shows later key b s.store) : Shows later key b (occur t s).2.store := by
  obtain ⟨clock, call⟩ := t
  cases call with
  | store change => exact (hspares s.store).trans h
  | request random request =>
    change Shows later key b (answer clock random request s).2.store
    rcases store_answer clock random request s with hsame | heffect
    · rw [hsame]
      exact h
    · rw [heffect]
      cases hcall : request.asks? with
      | none => exact h
      | some call => exact Service.shows_respond hview hle hreadable (hspares call hcall) h

theorem shows_stateAfter (hview : LiveView live readable) (hreadable : readable later)
    {run : List (Timed (Occurrence σ))}
    (hrun : ∀ t ∈ run, t.clock ≤ later ∧ t.call.Spares later key) {b : Bytes} {s : Site σ}
    (h : Shows later key b s.store) : Shows later key b (stateAfter occur run s).store := by
  refine stateAfter_induction (fun _ (s : Site σ) => Shows later key b s.store) h ?_
  rintro before t rest rfl s hs
  obtain ⟨hle, hspares⟩ := hrun t (by simp)
  exact shows_occur hview hreadable hle hspares hs

/-! ### The URLs work -/

/-- The request is answered with status 200 and a body. -/
def Gives (clock : Clock) (random : Bytes) (request : Request) (s : Site σ) (body : Bytes) : Prop :=
  ∃ response s', answer clock random request s = (.ok response, s') ∧ response.status = 200 ∧
    response.body = body

/-- A `GET` of the path of a URL, after whatever has happened since a record was written: the record
lasts and nobody has written or deleted it, and the layers let the request in. -/
structure AskedInTime (lasts : Clock → Nat → Clock → Prop) (clock : Clock) (downloadKey : Text)
    (written : Site σ) (run : List (Timed (Occurrence σ))) (later : Clock) (read : Request)
    (uri : Uri) : Prop where
  lasts : lasts clock written.store.retention later
  moment : later.moment?.isSome = true
  spared : ∀ t ∈ run, t.clock ≤ later ∧ t.call.Spares later downloadKey
  method : read.method = .get
  path : read.uri.path = uri.path
  letIn : LetIn later read (stateAfter occur run written)

/-- The body of the response to a write names a URL for each field, and the URLs work: the query has
a first value for the name, and a `GET` of the URL's path in time gives it as it has been stored. -/
def UrlsWork (lasts : Clock → Nat → Clock → Prop) (clock : Clock) (write : Request)
    (uploadKey path : Text) (response : Response) (written : Site σ) : Prop :=
  ∃ downloadKey moment, Service.downloadKeyOf uploadKey = .ok downloadKey ∧
    clock.moment? = some moment ∧
    response.body = Text.toUtf8 (Json.object [
      ("message".toList, Json.quote "Data uploaded successfully".toList),
      ("download_url".toList, Json.quote (recordUrl write.host downloadKey)),
      ("parameter_urls".toList, Json.object
        ((parameterUrls write.host downloadKey path (paramsOf write.uri)).map
          fun entry => (entry.1, Json.quote entry.2)))]) ∧
    ∀ name url, (name, url) ∈ parameterUrls write.host downloadKey path (paramsOf write.uri) →
      ∃ value, firstValue? write.uri name = some value ∧
        (Addressable write.host path name →
          ∀ uri run later random read, Uri.ofText? url = some uri →
            AskedInTime lasts clock downloadKey written run later read uri →
            Gives later random read (stateAfter occur run written)
              (Text.toUtf8 (Record.writtenText moment path name (Html.escape value) ++ ['\n'])))

/-- A `GET` that is let in gives the body that its route makes. -/
theorem gives_of_onRoute {read : Request} {s s' : Site σ} {route : Route} {reply : Response}
    (hmethod : read.method = .get) (hin : LetIn clock read s) (hroute : read.route? = some route)
    (hserved : onRoute clock random read route (s.charged clock read) = (.ok reply, s'))
    (hstatus : reply.status = 200) : Gives clock random read s reply.body := by
  obtain ⟨response, hanswer, hstatus, hbody⟩ :=
    answer_of_onRoute hmethod hin hroute hserved hstatus
  exact ⟨response, s', hanswer, hstatus, hbody⟩

theorem gives_of_downloadField {read : Request} {s : Site σ} {field : Text} {value : Value}
    {store : RecordStore σ} (hmethod : read.method = .get) (hin : LetIn clock read s)
    (hmoment : clock.moment?.isSome = true) (hroute : read.route? = some (.downloadPlain key field))
    (h : Service.downloadField clock key field s.store = (.ok value, store)) :
    Gives clock random read s (Text.toUtf8 (value.toPlain ++ ['\n'])) := by
  obtain ⟨s', hserved, -⟩ : ∃ s', onRoute clock random read (.downloadPlain key field)
      (s.charged clock read) = (.ok (plainResponse value.toPlain), s') ∧ s'.store = store :=
    onStore_count_of_ok hmoment h
  exact gives_of_onRoute hmethod hin hroute hserved rfl

theorem urlsWork_of_lastingView (hview : LastingView live readable lasts) {write : Request}
    {response : Response} {s s₁ : Site σ} (hmethod : write.method = .get)
    (hroute : write.route?.bind Route.writes? = some (uploadKey, path))
    (hanswer : answer clock random write s = (.ok response, s₁)) (hstatus : response.status = 200) :
    UrlsWork lasts clock write uploadKey path response s₁ := by
  obtain ⟨route, hserved, hwrites⟩ := Option.bind_eq_some_iff.1 hroute
  obtain ⟨route', s₀, reply, hserved', hstore, honRoute, hbody⟩ :=
    exists_of_answered hmethod hanswer hstatus
  obtain rfl := Option.some.inj (hserved.symm.trans hserved')
  obtain ⟨written, hwrote, hreply⟩ := exists_wrote hwrites honRoute
  obtain ⟨existing, moment, -, hmoment, -⟩ := hwrote.record
  obtain ⟨digest, hdigest⟩ := Service.exists_of_downloadKeyOf hwrote.key
  rw [writtenBody_eq] at hreply
  refine ⟨written.downloadKey, moment, hwrote.key, hmoment, hbody.trans hreply, ?_⟩
  intro name url hurl
  obtain ⟨⟨value, hvalue⟩, rfl⟩ := mem_parameterUrls_iff.1 hurl
  have htext : (paramsOf write.uri).get? name = some (Html.escape value) := by
    rw [get?_paramsOf, hvalue, Option.map_some]
  refine ⟨value, hvalue, fun haddressable uri run later random' read huri hasked => ?_⟩
  obtain ⟨moment', hmoment', hdownload⟩ := hwrote.downloadField haddressable.whole haddressable.free
    haddressable.shallow htext
  obtain rfl := Option.some.inj (hmoment.symm.trans hmoment')
  have hshows := shows_stateAfter hview.toLiveView (hview.readable_of_lasts hasked.lasts)
    hasked.spared (hwrote.shows hview hasked.lasts)
  obtain ⟨store, hfield⟩ := hdownload later _ hshows
  rw [hdigest] at huri hfield
  have hread := route?_of_fieldUrl haddressable (head?_of_writes hserved hwrites) huri hasked.method
    hasked.path
  exact gives_of_downloadField hasked.method hasked.letIn hasked.moment hread hfield

/-- **The URLs that a write gives out work.** After a successful upload or patch, in memory or in
rows, every URL of the response leads to its field for as long as the record lasts: a `GET` of its
path gives the first value that the query had for the name, escaped, or the time of the write if the
name is the reserved one. -/
theorem field_urls_work {clock : Clock} {random : Bytes} {write : Request} {uploadKey path : Text}
    (hmethod : write.method = .get)
    (hroute : write.route?.bind Route.writes? = some (uploadKey, path)) :
    (∀ (s s' : Site Memory) (response : Response),
      answer clock random write s = (.ok response, s') → response.status = 200 →
        UrlsWork Memory.Lasts clock write uploadKey path response s') ∧
    (∀ (s s' : Site Rows) (response : Response),
      answer clock random write s = (.ok response, s') → response.status = 200 →
        UrlsWork Rows.Lasts clock write uploadKey path response s') :=
  ⟨fun _ _ _ => urlsWork_of_lastingView Memory.lastingView hmethod hroute,
    fun _ _ _ => urlsWork_of_lastingView Rows.lastingView hmethod hroute⟩

/-! ### Samples -/

/-- A patch of the temperature of a room, which is sent twice. -/
def roomWrite : Request :=
  sampleGet ("/patch/" ++ String.ofList Service.sampleUploadKey ++ "/house/room1")
    "temp=20%20%3C%2021&temp=30"

/-- A `GET` of a field of the sample record. -/
def fieldGet (path name : Text) : Request where
  method := .get
  uri := ⟨"/d/".toList ++ Service.sampleDownloadKey ++ "/plain/".toList ++ fieldPath path name, none⟩
  headers := []
  peer := none

theorem exists_of_sampleSite {clock : Clock} {write : Request}
    (h : (answer clock [] write sampleSite).1.map (·.status) = .ok 200) :
    ∃ response s, answer clock [] write sampleSite = (.ok response, s) ∧ response.status = 200 ∧
      s.store.retention = 60000000000 := by
  obtain ⟨response, s, hanswer, hstatus⟩ := exists_of_map h
  have hretention := retention_answer clock [] write sampleSite
  rw [hanswer] at hretention
  exact ⟨response, s, hanswer, hstatus, hretention⟩

theorem askedInTime_get {clock later : Clock} {s : Site Memory} {key : Text}
    {run : List (Timed (Occurrence Memory))} (hretention : s.store.retention = 60000000000)
    (hspan : later.monotonic < clock.monotonic + 60000000000)
    (hmoment : later.moment?.isSome = true)
    (hspared : ∀ t ∈ run, t.clock ≤ later ∧ t.call.Spares later key) (uri : Uri) :
    AskedInTime Memory.Lasts clock key s run later
      { method := .get, uri, headers := [], peer := none } uri := by
  have hlasts : Memory.Lasts clock s.store.retention later := by rwa [hretention]
  exact ⟨hlasts, hmoment, hspared, rfl, rfl, rfl, rfl⟩

theorem askedInTime_fieldGet {clock later : Clock} {s : Site Memory}
    {run : List (Timed (Occurrence Memory))} (hretention : s.store.retention = 60000000000)
    (hspan : later.monotonic < clock.monotonic + 60000000000)
    (hmoment : later.moment?.isSome = true)
    (hspared : ∀ t ∈ run, t.clock ≤ later ∧ t.call.Spares later Service.sampleDownloadKey)
    (path name : Text) :
    AskedInTime Memory.Lasts clock Service.sampleDownloadKey s run later (fieldGet path name)
      (fieldGet path name).uri :=
  askedInTime_get hretention hspan hmoment hspared _

theorem field_urls_work_sample :
    let clock : Clock := ⟨sampleWall, 0⟩
    let later := clock.advance 59999999999
    let path := "house/room1".toList
    let sweep : Occurrence Memory := .store fun store => (RecordStore.purge later store).2
    ∃ response s, answer clock [] roomWrite sampleSite = (.ok response, s) ∧
      response.status = 200 ∧
      Gives later [] (fieldGet path "temp".toList) (stateAfter occur [⟨later, sweep⟩] s)
        (Text.toUtf8 "20 &lt; 21\n".toList) := by
  intro clock later path sweep
  have hroute : roomWrite.route?.bind Route.writes? = some (Service.sampleUploadKey, path) := by
    decide +kernel
  obtain ⟨response, s, hanswer, hstatus, hretention⟩ :=
    @exists_of_sampleSite clock roomWrite (by decide +kernel)
  refine ⟨response, s, hanswer, hstatus, ?_⟩
  obtain ⟨downloadKey, moment, hkey, hmoment, -, hurls⟩ :=
    (field_urls_work rfl hroute).1 sampleSite s response hanswer hstatus
  obtain rfl := Except.ok.inj (Service.downloadKeyOf_sample.symm.trans hkey)
  have hhost : roomWrite.host = "localhost".toList := rfl
  have haddressable : Addressable roomWrite.host path "temp".toList :=
    ⟨by simp, by simp, by decide +kernel, by decide +kernel, by simp [fieldPath, path],
      by decide +kernel, by simp [hhost, Uri.endsAuthority]⟩
  have hfirst : firstValue? roomWrite.uri "temp".toList = some "20 < 21".toList := by decide +kernel
  obtain ⟨value, hvalue, hworks⟩ :=
    hurls "temp".toList _ (mem_parameterUrls_iff.2 ⟨⟨_, hfirst⟩, rfl⟩)
  obtain rfl := Option.some.inj (hvalue.symm.trans hfirst)
  have huri : Uri.ofText? (fieldUrl roomWrite.host Service.sampleDownloadKey path "temp".toList) =
      some (fieldGet path "temp".toList).uri := by
    decide +kernel
  have hspared : ∀ t ∈ [(⟨later, sweep⟩ : Timed (Occurrence Memory))],
      t.clock ≤ later ∧ t.call.Spares later Service.sampleDownloadKey := by
    intro t ht
    obtain rfl := List.mem_singleton.1 ht
    exact ⟨by decide, spares_purge Memory.liveView (by decide) trivial _⟩
  have htext : Record.writtenText moment path "temp".toList (Html.escape "20 < 21".toList) =
      "20 &lt; 21".toList := by
    rw [Record.writtenText, if_neg (by decide)]
    decide
  have hasked := @askedInTime_fieldGet clock later s _ hretention (by decide) (by decide) hspared
    path "temp".toList
  have hgives := hworks haddressable _ _ later [] _ huri hasked
  rw [htext] at hgives
  exact hgives

/-- An upload of a value for the reserved field. -/
def reservedWrite : Request :=
  sampleGet ("/u/" ++ String.ofList Service.sampleUploadKey) "timestamp=x"

/-- Not every URL gives the value that has been sent: that of the reserved field gives the stamp. -/
theorem not_field_urls_work_reserved :
    ¬ ∀ (clock : Clock) (write read : Request) (s s' : Site Memory) (response : Response)
      (uploadKey downloadKey path name url value : Text) (uri : Uri),
      write.method = .get → write.route?.bind Route.writes? = some (uploadKey, path) →
      answer clock [] write s = (.ok response, s') → response.status = 200 →
      Service.downloadKeyOf uploadKey = .ok downloadKey →
      (name, url) ∈ parameterUrls write.host downloadKey path (paramsOf write.uri) →
      firstValue? write.uri name = some value → Uri.ofText? url = some uri →
      AskedInTime Memory.Lasts clock downloadKey s' [] clock read uri →
      Gives clock [] read s' (Text.toUtf8 (Html.escape value ++ ['\n'])) := by
  intro hwork
  let clock : Clock := ⟨sampleWall, 0⟩
  have hroute : reservedWrite.route?.bind Route.writes? = some (Service.sampleUploadKey, []) := by
    decide +kernel
  obtain ⟨response, s, hanswer, hstatus, hretention⟩ :=
    @exists_of_sampleSite clock reservedWrite (by decide +kernel)
  have hvalue : firstValue? reservedWrite.uri Record.timestampName = some "x".toList := by
    decide +kernel
  have huri : Uri.ofText? (fieldUrl reservedWrite.host Service.sampleDownloadKey []
      Record.timestampName) = some (fieldGet [] Record.timestampName).uri := by
    decide +kernel
  have hasked := @askedInTime_fieldGet clock clock s [] hretention (by decide) (by decide)
    (fun _ h => absurd h List.not_mem_nil) [] Record.timestampName
  obtain ⟨read, s', hread, -, hbody⟩ := hwork clock reservedWrite (fieldGet [] Record.timestampName)
    sampleSite s response _ _ _ _ _ _ _ rfl hroute hanswer hstatus Service.downloadKeyOf_sample
    (mem_parameterUrls_iff.2 ⟨⟨_, hvalue⟩, rfl⟩) hvalue huri hasked
  have hstamp : (answer clock [] (fieldGet [] Record.timestampName)
      (answer clock [] reservedWrite sampleSite).2).1.map (·.body) =
        .ok (Text.toUtf8 "2023-11-14T22:13:20Z\n".toList) := by
    decide +kernel
  rw [hanswer, hread] at hstamp
  rw [Outcome.map, hbody] at hstamp
  exact absurd hstamp (by decide)

/-- What the paths of the URLs of other fields lead to: a name with a slash in it, the empty name, a
name with an escape in it, and a field below the reserved one. -/
example : [("/u/", "", "a%2Fb=x", "a/b"), ("/u/", "", "=x", ""), ("/u/", "", "a%2541=x", "a%41"),
    ("/patch/", "/timestamp", "a=x", "timestamp/a")].map (fun (route, path, query, field) =>
      let key := String.ofList Service.sampleUploadKey
      let clock : Clock := ⟨sampleWall, 0⟩
      (exchanges [⟨clock, .request [] (sampleGet (route ++ key ++ path) query)⟩,
        ⟨clock, .request [] (fieldGet [] field.toList)⟩] sampleSite).map fun e => e.2.status) =
    [[200, 404], [200, 404], [200, 404], [200, 400]] := by
  decide +kernel

end DeadDrop.Http
