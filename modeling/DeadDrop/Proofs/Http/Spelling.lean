import DeadDrop.Proofs.Http.Accounting
import DeadDrop.Proofs.Http.Target

/-!
# Spellings of a path

What can be asked about a key has several spellings: with a word in front of the key or without it,
with a slash behind the key or without it, and with any number of slashes around a field or a path.

A path is matched as it was sent, and slashes at the ends of a field or path are dropped once it
has been decoded. What stands on the two sides of a slash is decoded apart
(`decodeCapture_append_cons`), so a slash that was added is a slash that is dropped, and all
spellings lead to one decoded route (`decode_of_spells`). Nobody looks at the path of a request but
to find its route: if a layer refuses the request, the path is written to the log, and that is all
(`Alike`).
-/

namespace DeadDrop

/-! ### Keys -/

namespace Credential

/-- A key as clients write it: a tag or none, and hexadecimal digits in either case. -/
def IsKey (key : Text) : Prop :=
  ∃ tag ∈ [[], uploadTag, downloadTag], ∃ digits : Text,
    key = tag ++ digits ∧ digits.length = 64 ∧ ∀ c ∈ digits, (Hex.digit? c).isSome

theorem IsKey.slash_not_mem {key : Text} (h : IsKey key) : '/' ∉ key := by
  obtain ⟨tag, htag, digits, rfl, -, hdigits⟩ := h
  have htags : ∀ tag ∈ [[], uploadTag, downloadTag], '/' ∉ tag := by decide
  intro hmem
  rcases List.mem_append.1 hmem with hmem | hmem
  · exact htags tag htag hmem
  · exact absurd (hdigits _ hmem) (by decide)

/-- A key is longer than any word of a route. -/
theorem IsKey.ne_of_length {key word : Text} (h : IsKey key) (hword : word.length < 64) :
    key ≠ word := by
  obtain ⟨tag, -, digits, rfl, hlength, -⟩ := h
  rintro rfl
  rw [List.length_append] at hword
  omega

end Credential

namespace Http

/-! ### Slashes -/

def slashes (n : Nat) : Text := List.replicate n '/'

namespace Route

/-- What stands on the two sides of a slash is decoded apart. -/
theorem decodeCapture_append_cons (name : String) (t u : Text) :
    decodeCapture name (t ++ '/' :: u) =
      (decodeCapture name t).bind fun t' =>
        (decodeCapture name u).map fun u' => t' ++ '/' :: u' := by
  have hbytes : Text.toUtf8 (t ++ '/' :: u) = Text.toUtf8 t ++ 0x2F :: Text.toUtf8 u := by
    rw [Text.toUtf8, List.flatMap_append, List.flatMap_cons]
    rfl
  rw [decodeCapture, hbytes, Percent.decode_append_cons (by decide) (by decide),
    Text.ofUtf8?_append_cons (by decide), decodeCapture, decodeCapture]
  cases Text.ofUtf8? (Percent.decode (Text.toUtf8 t)) <;>
    cases Text.ofUtf8? (Percent.decode (Text.toUtf8 u)) <;> rfl

theorem trimSlashes_cons (t : Text) : trimSlashes ('/' :: t) = trimSlashes t := rfl

theorem trimSlashes_concat (t : Text) : trimSlashes (t ++ ['/']) = trimSlashes t :=
  Text.trim_append_right (by simp)

section Trimmed

variable {α : Type} (name : String) (next : Text → Except Text α)

theorem decodeCapture_cons_bind (t : Text) :
    ((decodeCapture name ('/' :: t)).bind fun t' => next (trimSlashes t')) =
      (decodeCapture name t).bind fun t' => next (trimSlashes t') := by
  have hslash := decodeCapture_append_cons name [] t
  rw [List.nil_append] at hslash
  rw [hslash]
  cases decodeCapture name t with
  | error e => rfl
  | ok t' => exact congrArg next (trimSlashes_cons t')

theorem decodeCapture_concat_bind (t : Text) :
    ((decodeCapture name (t ++ ['/'])).bind fun t' => next (trimSlashes t')) =
      (decodeCapture name t).bind fun t' => next (trimSlashes t') := by
  rw [decodeCapture_append_cons]
  cases decodeCapture name t with
  | error e => rfl
  | ok t' => exact congrArg next (trimSlashes_concat t')

/-- Slashes around a capture are gone when it has been decoded and trimmed. -/
theorem decodeCapture_slashes_bind (m n : Nat) (t : Text) :
    ((decodeCapture name (slashes m ++ t ++ slashes n)).bind fun t' => next (trimSlashes t')) =
      (decodeCapture name t).bind fun t' => next (trimSlashes t') := by
  induction n with
  | zero =>
    rw [slashes, slashes, List.replicate_zero, List.append_nil]
    induction m with
    | zero => rfl
    | succ m ih => rw [List.replicate_succ, List.cons_append, decodeCapture_cons_bind, ih]
  | succ n ih =>
    have hlast : slashes m ++ t ++ slashes (n + 1) = (slashes m ++ t ++ slashes n) ++ ['/'] := by
      rw [slashes, slashes, List.replicate_succ', List.append_assoc]
      simp [slashes]
    rw [hlast, decodeCapture_concat_bind, ih]

end Trimmed

end Route

/-! ### Routes -/

/-- The paths that ask for a route. The captures of the route are as they are sent, without slashes
around them; a patch without a path is one of the root. -/
inductive Spells (key : Text) : Route → Text → Prop
  | upload : Spells key (.upload key) ("/u/".toList ++ key)
  | uploadSlash : Spells key (.upload key) ("/u/".toList ++ key ++ "/".toList)
  | uploadLegacy : Spells key (.upload key) ("/".toList ++ key ++ "/".toList)
  | json : Spells key (.downloadJson key) ("/d/".toList ++ key ++ "/json".toList)
  | jsonLegacy : Spells key (.downloadJson key) ("/".toList ++ key ++ "/json".toList)
  | plain {field : Text} (asked : field ≠ []) (m n : Nat) :
      Spells key (.downloadPlain key field)
        ("/d/".toList ++ key ++ "/plain/".toList ++ (slashes m ++ field ++ slashes n))
  | plainLegacy {field : Text} (asked : field ≠ []) (m n : Nat) :
      Spells key (.downloadPlain key field)
        ("/".toList ++ key ++ "/plain/".toList ++ (slashes m ++ field ++ slashes n))
  | patch : Spells key (.patch key []) ("/patch/".toList ++ key)
  | patchAt (path : Text) (m n : Nat) :
      Spells key (.patch key path)
        ("/patch/".toList ++ key ++ "/".toList ++ (slashes m ++ path ++ slashes n))

namespace Route

open Credential

/-- The first route whose pattern takes some pieces. -/
def ofPieces? (pieces : List Text) : Option Route :=
  patterns.findSome? fun pattern => (matchPieces pattern.pieces pieces {}).map pattern.route

/-- In front of the first slash of a path there is nothing. -/
theorem ofPath?_of_splitOn {path : Text} {pieces : List Text}
    (h : Text.splitOn '/' path = [] :: pieces) : ofPath? path = ofPieces? pieces := by
  cases path with
  | nil =>
    obtain ⟨-, rfl⟩ := List.cons.inj h
    rfl
  | cons c path =>
    by_cases hc : c = '/'
    · rw [hc, Text.splitOn_cons_self] at h
      rw [hc, ofPath?, (List.cons.inj h).2]
      rfl
    · obtain ⟨piece, rest, hrest⟩ := Text.exists_splitOn_eq_cons '/' path
      rw [Text.splitOn_cons_of_ne hc hrest] at h
      cases h

section Found

-- a path is split up to its captures, and its pieces are tried on one pattern after the other
attribute [local simp] Text.splitOn ofPieces? patterns matchPieces word

variable {key : Text}

theorem ofPath?_upload (h : IsKey key) : ofPath? ("/u/".toList ++ key) = some (.upload key) := by
  have hpieces : Text.splitOn '/' ("/u/".toList ++ key) = [[], "u".toList, key] := by
    simp [Text.splitOn_of_not_mem h.slash_not_mem]
  rw [ofPath?_of_splitOn hpieces]
  simp [h.ne_of_length]

theorem ofPath?_upload_slash (h : IsKey key) :
    ofPath? ("/u/".toList ++ key ++ "/".toList) = some (.upload key) := by
  have hpieces :
      Text.splitOn '/' ("/u/".toList ++ key ++ "/".toList) = [[], "u".toList, key, []] := by
    simp [Text.splitOn_append h.slash_not_mem]
  rw [ofPath?_of_splitOn hpieces]
  simp

theorem ofPath?_upload_legacy (h : IsKey key) :
    ofPath? ("/".toList ++ key ++ "/".toList) = some (.upload key) := by
  have hpieces : Text.splitOn '/' ("/".toList ++ key ++ "/".toList) = [[], key, []] := by
    simp [Text.splitOn_append h.slash_not_mem]
  rw [ofPath?_of_splitOn hpieces]
  simp [h.ne_of_length]

theorem ofPath?_json (h : IsKey key) :
    ofPath? ("/d/".toList ++ key ++ "/json".toList) = some (.downloadJson key) := by
  have hpieces : Text.splitOn '/' ("/d/".toList ++ key ++ "/json".toList) =
      [[], "d".toList, key, "json".toList] := by
    simp [Text.splitOn_append h.slash_not_mem]
  rw [ofPath?_of_splitOn hpieces]
  simp

theorem ofPath?_json_legacy (h : IsKey key) :
    ofPath? ("/".toList ++ key ++ "/json".toList) = some (.downloadJson key) := by
  have hpieces :
      Text.splitOn '/' ("/".toList ++ key ++ "/json".toList) = [[], key, "json".toList] := by
    simp [Text.splitOn_append h.slash_not_mem]
  rw [ofPath?_of_splitOn hpieces]
  simp [h.ne_of_length]

theorem ofPath?_plain_legacy (h : IsKey key) {field : Text} (hfield : field ≠ []) :
    ofPath? ("/".toList ++ key ++ "/plain/".toList ++ field) = some (.downloadPlain key field) := by
  obtain ⟨piece, pieces, hrest⟩ := Text.exists_splitOn_eq_cons '/' field
  have hjoin : Text.join ['/'] (piece :: pieces) = field := by rw [← hrest, Text.join_splitOn]
  have hpieces : Text.splitOn '/' ("/".toList ++ key ++ "/plain/".toList ++ field) =
      [] :: key :: "plain".toList :: piece :: pieces := by
    simp [Text.splitOn_append h.slash_not_mem, hrest]
  rw [ofPath?_of_splitOn hpieces]
  simp [h.ne_of_length, hjoin, hfield]

theorem ofPath?_patch (h : IsKey key) :
    ofPath? ("/patch/".toList ++ key) = some (.patch key []) := by
  have hpieces : Text.splitOn '/' ("/patch/".toList ++ key) = [[], "patch".toList, key] := by
    simp [Text.splitOn_of_not_mem h.slash_not_mem]
  rw [ofPath?_of_splitOn hpieces]
  simp [h.ne_of_length]

theorem ofPath?_patch_at (h : IsKey key) (path : Text) :
    ofPath? ("/patch/".toList ++ key ++ "/".toList ++ path) = some (.patch key path) := by
  obtain ⟨piece, pieces, hrest⟩ := Text.exists_splitOn_eq_cons '/' path
  have hjoin : Text.join ['/'] (piece :: pieces) = path := by rw [← hrest, Text.join_splitOn]
  have hpieces : Text.splitOn '/' ("/patch/".toList ++ key ++ "/".toList ++ path) =
      [] :: "patch".toList :: key :: piece :: pieces := by
    simp [Text.splitOn_append h.slash_not_mem, hrest]
  rw [ofPath?_of_splitOn hpieces]
  -- the pattern with a slash at the end takes the pieces only if nothing stands behind it
  cases pieces with
  | nil =>
    obtain rfl : piece = path := hjoin
    by_cases hpath : piece = [] <;>
      simp [hpath, Text.join]
  | cons next pieces =>
    have hpath : path ≠ [] := by simp [← hjoin, Text.join]
    simp [hjoin, hpath]

/-! ### What is found -/

theorem decode_plain_slashes (key field : Text) (m n : Nat) :
    (downloadPlain key (slashes m ++ field ++ slashes n)).decode =
      (downloadPlain key field).decode := by
  rw [decode, decode]
  cases decodeCapture "key" key with
  | error name => rfl
  | ok key' =>
    exact decodeCapture_slashes_bind "field" (fun t => .ok (Route.downloadPlain key' t)) m n field

theorem decode_patch_slashes (key path : Text) (m n : Nat) :
    (patch key (slashes m ++ path ++ slashes n)).decode = (patch key path).decode := by
  rw [decode, decode]
  cases decodeCapture "key" key with
  | error name => rfl
  | ok key' => exact decodeCapture_slashes_bind "path" (fun t => .ok (Route.patch key' t)) m n path

theorem slashes_append_ne_nil {t : Text} (h : t ≠ []) (m n : Nat) :
    slashes m ++ t ++ slashes n ≠ [] :=
  List.append_ne_nil_of_left_ne_nil (List.append_ne_nil_of_right_ne_nil _ h) _

/-- A spelling of a route leads to the route. -/
theorem decode_of_spells (hkey : IsKey key) {route : Route} {path : Text}
    (h : Spells key route path) : (ofPath? path).map decode = some route.decode := by
  cases h with
  | upload => rw [ofPath?_upload hkey, Option.map_some]
  | uploadSlash => rw [ofPath?_upload_slash hkey, Option.map_some]
  | uploadLegacy => rw [ofPath?_upload_legacy hkey, Option.map_some]
  | json => rw [ofPath?_json hkey, Option.map_some]
  | jsonLegacy => rw [ofPath?_json_legacy hkey, Option.map_some]
  | plain asked m n =>
    rw [ofPath?_plain hkey.slash_not_mem (slashes_append_ne_nil asked m n), Option.map_some,
      decode_plain_slashes]
  | plainLegacy asked m n =>
    rw [ofPath?_plain_legacy hkey (slashes_append_ne_nil asked m n), Option.map_some,
      decode_plain_slashes]
  | patch => rw [ofPath?_patch hkey, Option.map_some]
  | patchAt path m n => rw [ofPath?_patch_at hkey, Option.map_some, decode_patch_slashes]

end Found

end Route

/-! ### Requests -/

/-- The paths lead to one route, or both to none. -/
def SameRoute (path path' : Text) : Prop :=
  (Route.ofPath? path).map Route.decode = (Route.ofPath? path').map Route.decode

/-- The request with another path. -/
def Request.withPath (request : Request) (path : Text) : Request :=
  { request with uri := { request.uri with path } }

/-- The events that name the path of a request, each as a function of the path. -/
inductive NamesPath : (Text → LogEvent) → Prop
  | rateLimited (client : Text) : NamesPath (.rateLimited client)
  | requestTooLarge (peer : Option SocketAddress) (size max : Nat) :
      NamesPath fun path => .requestTooLarge peer path size max

variable {σ : Type}

/-- Two requests that differ in their paths end alike: with the same outcome in the same state, but
for the path in the event that is written last when a layer refuses them. -/
inductive Alike (path path' : Text) :
    Outcome Empty Response × Site σ → Outcome Empty Response × Site σ → Prop
  | same (result : Outcome Empty Response × Site σ) : Alike path path' result result
  | refused {event : Text → LogEvent} (names : NamesPath event)
      (outcome : Outcome Empty Response) (s : Site σ) :
      Alike path path' (outcome, s.emit [event path]) (outcome, s.emit [event path'])

section Alike

variable {path path' : Text} {clock : Clock} {random : Bytes} {request : Request}

theorem onRoute_withPath [Backend σ] (path : Text) (route : Route) :
    (onRoute clock random (request.withPath path) route : Action (Site σ) Failure Response) =
      onRoute clock random request route := by
  cases route <;> rfl

theorem onCaptured_withPath [Backend σ] {route route' : Route} (h : route.decode = route'.decode) :
    (onCaptured clock random (request.withPath path) route : Action (Site σ) Failure Response) =
      onCaptured clock random (request.withPath path') route' := by
  rw [onCaptured, onCaptured, h]
  cases route'.decode with
  | error name => rfl
  | ok decoded => exact (onRoute_withPath path decoded).trans (onRoute_withPath path' decoded).symm

/-- Requests that lead to one route are dispatched in one way. -/
theorem dispatch_withPath [Backend σ] (h : SameRoute path path') :
    (dispatch clock random (request.withPath path) : Action (Site σ) Empty Response) =
      dispatch clock random (request.withPath path') := by
  have hread : (request.withPath path).isRead = (request.withPath path').isRead := rfl
  have hpath : ∀ path, (request.withPath path).uri.path = path := fun _ => rfl
  rw [dispatch, dispatch, hread, hpath, hpath]
  cases hroute : Route.ofPath? path with
  | none =>
    rw [SameRoute, hroute, Option.map_none, eq_comm, Option.map_eq_none_iff] at h
    rw [h]
  | some route =>
    rw [SameRoute, hroute, Option.map_some, eq_comm, Option.map_eq_some_iff] at h
    obtain ⟨route', hroute', hdecode⟩ := h
    rw [hroute']
    exact congrArg
      (fun call =>
        if (request.withPath path').isRead then Site.answering call else pure (.empty 405))
      (onCaptured_withPath hdecode.symm)

theorem limited_withPath [Backend σ] (h : SameRoute path path') (s : Site σ) :
    Alike path path' (limited clock random (request.withPath path) s)
      (limited clock random (request.withPath path') s) := by
  cases hoversize : request.oversize? s.maxRequestSize with
  | some size =>
    have hrefused : ∀ path, limited clock random (request.withPath path) s =
        (.ok (errorResponse (.requestTooLarge size s.maxRequestSize)),
          s.emit [.requestTooLarge request.peer path size s.maxRequestSize]) :=
      fun path => limitSize_of_oversize hoversize
    rw [hrefused, hrefused]
    exact .refused (.requestTooLarge request.peer size s.maxRequestSize) _ s
  | none =>
    have hwithin : ∀ path, limited clock random (request.withPath path) s =
        limitRate clock (dispatch clock random) (request.withPath path) s :=
      fun path => limitSize_of_within hoversize
    rw [hwithin, hwithin]
    cases hadmission : (admission clock request.peer s.limiter).1 with
    | deny =>
      cases hpeer : request.peer with
      | none =>
        rw [hpeer] at hadmission
        cases hadmission
      | some peer =>
        rw [hpeer] at hadmission
        have hdenied : ∀ path, limitRate clock (dispatch clock random) (request.withPath path) s =
            (.ok (errorResponse (.rateLimited peer.ip.toText)),
              Site.emit [.rateLimited peer.ip.toText path]
                { s with stats := s.stats.recordRateLimitHit peer.ip.toText }) :=
          fun path => limitRate_of_deny hpeer hadmission
        rw [hdenied, hdenied]
        exact .refused (.rateLimited peer.ip.toText) _ _
    | allow =>
      have hallowed : ∀ path, limitRate clock (dispatch clock random) (request.withPath path) s =
          dispatch clock random (request.withPath path)
            { s with limiter := (admission clock request.peer s.limiter).2 } :=
        fun path => limitRate_of_allow hadmission
      rw [hallowed, hallowed, dispatch_withPath h]
      exact .same _

theorem settle_emit (response : Response) (events : List LogEvent) (s : Site σ) :
    settle clock response (s.emit events) =
      ((settle clock response s).1, (settle clock response s).2.emit events) := by
  unfold settle
  split
  · cases clock.moment? <;> rfl
  · rfl

/-- What a response is given before it is sent does not depend on how its route was spelled. -/
theorem finish_withPath (h : SameRoute path path') (response : Response) :
    finish (request.withPath path) response = finish (request.withPath path') response := by
  have hfound : (Route.ofPath? path).isSome = (Route.ofPath? path').isSome := by
    rw [← Option.isSome_map, h, Option.isSome_map]
  simp only [finish, Request.withPath, hfound]
  rfl

/-- What becomes of how a request that is no preflight ends inside of the error count. -/
def sent (clock : Clock) (request : Request) :
    Outcome Empty Response × Site σ → Outcome Empty Response × Site σ
  | (.ok response, s) => settle clock (finish request (response.withHeaders sharingHeaders)) s
  | (.error e, _) => e.elim
  | (.abort, s) => (.abort, s)

theorem answer_eq_sent [Backend σ] (hmethod : request.method ≠ .options) (s : Site σ) :
    answer clock random request s = sent clock request (limited clock random request s) := by
  rcases hlimited : limited clock random request s with ⟨outcome, s'⟩
  cases outcome with
  | ok response => exact answer_eq_settle hmethod hlimited
  | error e => exact e.elim
  | abort => exact answer_of_limited_abort hmethod hlimited

theorem Alike.sent {result result' : Outcome Empty Response × Site σ}
    (h : Alike path path' result result') (hroute : SameRoute path path') :
    Alike path path' (sent clock (request.withPath path) result)
      (sent clock (request.withPath path') result') := by
  cases h with
  | same result =>
    rcases result with ⟨response | e | _, s⟩
    · rw [Http.sent, Http.sent, finish_withPath hroute]
      exact .same _
    · exact e.elim
    · exact .same _
  | refused names outcome s =>
    rcases outcome with response | e | _
    · rw [Http.sent, Http.sent, finish_withPath hroute, settle_emit, settle_emit]
      exact .refused names _ _
    · exact e.elim
    · exact .refused names _ s

/-- Requests that lead to one route are answered alike. -/
theorem answer_withPath [Backend σ] (h : SameRoute path path') (s : Site σ) :
    Alike path path' (answer clock random (request.withPath path) s)
      (answer clock random (request.withPath path') s) := by
  by_cases hmethod : request.method = .options
  · have hanswer : ∀ path, answer clock random (request.withPath path) s =
        settle clock (finish (request.withPath path)
          ((Response.empty 200).withHeaders (preflightHeaders ++ sharingHeaders))) s := by
      intro path
      have hpreflight : (request.withPath path).method = .options := hmethod
      apply answer_of_shared
      rw [shareAcrossOrigins, hpreflight]
      rfl
    rw [hanswer, hanswer, finish_withPath h]
    exact .same _
  · have hother : ∀ path, (request.withPath path).method ≠ .options := fun _ => hmethod
    rw [answer_eq_sent (hother path), answer_eq_sent (hother path')]
    exact (limited_withPath h s).sent h

end Alike

/-- **A route can be spelled in any way.** Every spelling of a route leads to the route. Whatever a
site holds, and whoever sends a request with whatever else in it, the request is answered with the
same response and leaves the same state under every spelling of its route. Only the event of a
refusal names the path as it was sent. -/
theorem spellings_answered_alike [Backend σ] (clock : Clock) (random : Bytes) (request : Request)
    (s : Site σ) {key : Text} (hkey : Credential.IsKey key) {route : Route} {path path' : Text}
    (h : Spells key route path) (h' : Spells key route path') :
    (Route.ofPath? path).map Route.decode = some route.decode ∧
      Alike path path' (answer clock random (request.withPath path) s)
        (answer clock random (request.withPath path') s) := by
  have hroute := Route.decode_of_spells hkey h
  have hroute' := Route.decode_of_spells hkey h'
  exact ⟨hroute, answer_withPath (hroute.trans hroute'.symm) s⟩

/-! ### Samples -/

theorem isKey_tagUpload_sample :
    Credential.IsKey (Credential.tagUpload Service.sampleUploadKey) := by
  refine ⟨Credential.uploadTag, by decide, Service.sampleUploadKey, rfl, rfl, fun c hc => ?_⟩
  rw [List.eq_of_mem_replicate hc]
  decide

/-- A patch of a room, with slashes around the path and without them. -/
theorem spellings_answered_alike_sample :
    let key := Credential.tagUpload Service.sampleUploadKey
    let room := "house/room1".toList
    let path := "/patch/".toList ++ key ++ "/".toList ++ (slashes 0 ++ room ++ slashes 0)
    let path' := "/patch/".toList ++ key ++ "/".toList ++ (slashes 2 ++ room ++ slashes 1)
    let request := sampleGet "/" "temp=20"
    Credential.IsKey key ∧ Spells key (.patch key room) path ∧ Spells key (.patch key room) path' ∧
      (Route.ofPath? path).map Route.decode = some (Route.patch key room).decode ∧
      Alike path path' (answer ⟨sampleWall, 0⟩ [] (request.withPath path) sampleSite)
        (answer ⟨sampleWall, 0⟩ [] (request.withPath path') sampleSite) := by
  intro key room path path' request
  have hkey : Credential.IsKey key := isKey_tagUpload_sample
  have hpath : Spells key (.patch key room) path := .patchAt room 0 0
  have hpath' : Spells key (.patch key room) path' := .patchAt room 2 1
  exact ⟨hkey, hpath, hpath', spellings_answered_alike _ _ _ _ hkey hpath hpath'⟩

end Http

end DeadDrop
