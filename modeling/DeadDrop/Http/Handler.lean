import DeadDrop.Http.Route
import DeadDrop.Http.Site
import DeadDrop.Json.Object
import DeadDrop.Text.Base64
import DeadDrop.Text.Form
import DeadDrop.Text.Html

/-!
# Handlers

What the server does on each route. Writes take their fields from the query: the first value of a
name counts, and it is stored as inert HTML. An upload or a download is counted once it has
succeeded.
-/

namespace DeadDrop.Http

/-! ### Bodies -/

def paramsOf (uri : Uri) : Params :=
  (Form.decode (uri.query.getD [])).foldl
    (fun params (name, value) =>
      if params.contains name then params else params.insert name (Html.escape value))
    Table.empty

def recordUrl (host downloadKey : Text) : Text :=
  "http://".toList ++ host ++ "/d/".toList ++ downloadKey ++ "/json".toList

def fieldUrl (host downloadKey path name : Text) : Text :=
  "http://".toList ++ host ++ "/d/".toList ++ downloadKey ++ "/plain/".toList ++
    (if path.isEmpty then [] else path ++ ['/']) ++ name

/-- What a client gets back from a write: where to download the record and each of the fields. -/
def writtenBody (host downloadKey path : Text) (params : Params) : Text :=
  Json.object [
    ("message".toList, Json.quote "Data uploaded successfully".toList),
    ("download_url".toList, Json.quote (recordUrl host downloadKey)),
    ("parameter_urls".toList, Json.object (params.entries.map fun (name, _) =>
      (name, Json.quote (fieldUrl host downloadKey path name))))]

def keyPairBody (pair : Service.KeyPair) : Text :=
  Json.object [
    ("upload-key".toList, Json.quote (Credential.tagUpload pair.uploadKey)),
    ("download-key".toList, Json.quote (Credential.tagDownload pair.downloadKey))]

/-- A snapshot of the statistics and the whole seconds since the start. -/
def statsBody (snapshot : StatsSnapshot) (uptimeSeconds : Nat) : Text :=
  Json.object [
    ("downloads".toList, Text.ofNat snapshot.lifetime.downloads),
    ("uploads".toList, Text.ofNat snapshot.lifetime.uploads),
    ("http_errors".toList, Text.ofNat snapshot.lifetime.httpErrors),
    ("rate_limit_hits".toList, Text.ofNat snapshot.rateLimitHits),
    ("last_24h_downloads".toList, Text.ofNat snapshot.lastDay.downloads),
    ("last_24h_uploads".toList, Text.ofNat snapshot.lastDay.uploads),
    ("last_24h_http_errors".toList, Text.ofNat snapshot.lastDay.httpErrors),
    ("rate_limited_clients".toList, Json.array (snapshot.rateLimitedClients.map fun (client, hits) =>
      Json.object [
        ("client".toList, Json.quote client), ("hits".toList, Text.ofNat hits)])),
    ("start_time".toList, Json.quote snapshot.startTime.toText),
    ("uptime_secs".toList, Text.ofNat uptimeSeconds)]

def plainResponse (text : Text) : Response := .plain 200 (text ++ ['\n'])

/-! ### Routes -/

variable {σ : Type} [Backend σ]

def issueKeyPair (random : Bytes) : Action (Site σ) Failure Response :=
  match Service.keyPairOf random with
  | .ok pair => pure (.json (Text.toUtf8 (keyPairBody pair)))
  | .error e => .fail (.service e)

def showStats (clock : Clock) : Action (Site σ) Failure Response :=
  Site.onStats clock fun moment stats =>
    let (snapshot, stats) := stats.snapshot moment
    (.json (Text.toUtf8 (statsBody snapshot (stats.uptime moment / Moment.billion))), stats)

def upload (clock : Clock) (request : Request) (key : Text) : Action (Site σ) Failure Response := do
  let params := paramsOf request.uri
  let written ← Site.onStore (Service.upload clock key params)
  Site.count clock .upload
  pure (.json (Text.toUtf8 (writtenBody request.host written.downloadKey [] params)))

def patch (clock : Clock) (request : Request) (key path : Text) :
    Action (Site σ) Failure Response := do
  let params := paramsOf request.uri
  let written ← Site.onStore (Service.patch clock key path params)
  Site.count clock .upload
  pure (.json (Text.toUtf8 (writtenBody request.host written.downloadKey path params)))

def downloadJson (clock : Clock) (key : Text) : Action (Site σ) Failure Response := do
  let bytes ← Site.onStore (Service.downloadJson clock key)
  Site.count clock .download
  pure (.json bytes)

def downloadPlain (clock : Clock) (key field : Text) : Action (Site σ) Failure Response := do
  let value ← Site.onStore (Service.downloadField clock key field)
  Site.count clock .download
  pure (plainResponse value.toPlain)

def decodedText? : Value → Option Text
  | .leaf text => (Base64.decodeAny? text).map Text.ofUtf8Lossy
  | .node _ => none

def downloadDecoded (clock : Clock) (key field : Text) : Action (Site σ) Failure Response := do
  let value ← Site.onStore (Service.downloadField clock key field)
  match decodedText? value with
  | none => .fail .notBase64
  | some text =>
    Site.count clock .download
    pure (plainResponse text)

def delete (clock : Clock) (key : Text) : Action (Site σ) Failure Response := do
  let _ ← Site.onStore (Service.delete clock key)
  pure (.plain 200 "OK\n".toList)

def onRoute (clock : Clock) (random : Bytes) (request : Request) :
    Route → Action (Site σ) Failure Response
  | .keyPair => issueKeyPair random
  | .health =>
    pure (.json (Text.toUtf8 (Json.object [("status".toList, Json.quote "ok".toList)])))
  | .stats => showStats clock
  | .upload key => upload clock request key
  | .patch key path => patch clock request key path
  | .downloadJson key => downloadJson clock key
  | .downloadPlain key field => downloadPlain clock key field
  | .downloadDecoded key field => downloadDecoded clock key field
  | .delete key => delete clock key

/-- Does what a route asks for, if its captures spell text. -/
def onCaptured (clock : Clock) (random : Bytes) (request : Request) (route : Route) :
    Action (Site σ) Failure Response :=
  match route.decode with
  | .error name => .fail (.illFormedCapture name)
  | .ok route => onRoute clock random request route

end DeadDrop.Http
