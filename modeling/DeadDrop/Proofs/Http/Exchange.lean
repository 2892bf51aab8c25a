import DeadDrop.Proofs.Http.Layers
import DeadDrop.Proofs.Service.Requests

/-!
# From requests to the service and back

A request asks the service for one thing at most, and what it asks for can be told from its method
and its target alone (`Request.asks?`). Whatever else happens, the store is left as that call leaves
it, or as it was (`store_answer`). And a `GET` that is answered with status 200 has gone through all
layers to its route, so its body is the one that the route made (`exists_of_answered`); a `GET` that
the layers let in is answered as its route answers (`answer_of_onRoute`).
-/

namespace DeadDrop.Http

open DeadDrop.Action

/-! ### What is asked for -/

/-- What a route asks of the service; a write takes its fields from the target. -/
def Route.asks? (uri : Uri) : Route → Option Service.Request
  | .upload key => some (.upload key (paramsOf uri))
  | .patch key path => some (.patch key path (paramsOf uri))
  | .downloadJson key => some (.downloadJson key)
  | .downloadPlain key field | .downloadDecoded key field => some (.downloadField key field)
  | .delete key => some (.delete key)
  | .keyPair | .health | .stats => none

/-- The route that a request is let in on, with its captures decoded. -/
def Request.route? (request : Request) : Option Route :=
  if request.isRead then
    (Route.ofPath? request.uri.path).bind fun route => route.decode.toOption
  else none

def Request.asks? (request : Request) : Option Service.Request :=
  request.route?.bind (Route.asks? request.uri)

theorem route?_of_decode {request : Request} (hread : request.isRead = true) {route decoded : Route}
    (hroute : Route.ofPath? request.uri.path = some route) (hdecode : route.decode = .ok decoded) :
    request.route? = some decoded := by
  rw [Request.route?, if_pos hread, hroute, Option.bind_some, hdecode]
  rfl

theorem exists_of_route? {request : Request} {route : Route} (h : request.route? = some route) :
    request.isRead = true ∧
      ∃ raw, Route.ofPath? request.uri.path = some raw ∧ raw.decode = .ok route := by
  unfold Request.route? at h
  split at h
  case isTrue hread =>
    obtain ⟨raw, hraw, hdecode⟩ := Option.bind_eq_some_iff.1 h
    refine ⟨hread, raw, hraw, ?_⟩
    cases hd : raw.decode with
    | error name => simp [hd, Except.toOption] at hdecode
    | ok found => simpa [hd, Except.toOption] using hdecode
  case isFalse => cases h

/-- The first value that a query has for a name. -/
def firstValue? (uri : Uri) (name : Text) : Option Text :=
  ((Form.decode (uri.query.getD [])).find? fun pair => decide (pair.1 = name)).map Prod.snd

/-- A write takes the first value of a name, and escapes it. -/
theorem get?_paramsOf (uri : Uri) (name : Text) :
    (paramsOf uri).get? name = (firstValue? uri name).map Html.escape := by
  have hfold : ∀ (pairs : List (Text × Text)) (params : Params),
      (pairs.foldl (fun (params : Params) (pair : Text × Text) =>
        if params.contains pair.1 then params
        else params.insert pair.1 (Html.escape pair.2)) params).get? name =
      (params.get? name).or
        (((pairs.find? fun pair => decide (pair.1 = name)).map Prod.snd).map Html.escape) := by
    intro pairs
    induction pairs with
    | nil => exact fun params => (Option.or_none).symm
    | cons pair rest ih =>
      intro params
      rw [List.foldl_cons, ih, List.find?_cons]
      by_cases hname : pair.1 = name
      · -- the name has its value from now on, and had it before if it was there
        subst hname
        simp only [decide_true, Option.map_some]
        cases hold : params.get? pair.1 with
        | some text => simp [Table.contains, hold]
        | none => simp [Table.contains, hold, Table.get?_insert]
      · have hother : ∀ text, (params.insert pair.1 text).get? name = params.get? name :=
          fun text => by rw [Table.get?_insert, if_neg (Ne.symm hname)]
        simp only [decide_eq_false hname]
        split
        · rfl
        · rw [hother]
  exact hfold _ _

variable {σ : Type} [Backend σ] {clock : Clock} {random : Bytes} {request : Request}

theorem dispatch_of_route {route : Route} (h : request.route? = some route) (s : Site σ) :
    dispatch clock random request s = Site.answering (onRoute clock random request route) s := by
  obtain ⟨hread, raw, hraw, hdecode⟩ := exists_of_route? h
  unfold dispatch
  rw [hraw]
  simp only [hread, if_true]
  unfold onCaptured
  rw [hdecode]

/-- A request that is on no route is refused for its path, for its method or for its captures, and it
leaves the site as it is. -/
theorem dispatch_of_no_route (h : request.route? = none) (clock : Clock) (random : Bytes) :
    ∃ reply : Response, reply.status ∈ [400, 404, 405] ∧
      ∀ s : Site σ, dispatch clock random request s = (.ok reply, s) := by
  unfold Request.route? at h
  unfold dispatch
  cases hraw : Route.ofPath? request.uri.path with
  | none => exact ⟨_, (by decide : (404 : Nat) ∈ [400, 404, 405]), fun _ => rfl⟩
  | some raw =>
    cases hread : request.isRead with
    | false => exact ⟨_, (by decide : (405 : Nat) ∈ [400, 404, 405]), fun _ => rfl⟩
    | true =>
      rw [hread, hraw] at h
      simp only [if_true]
      unfold onCaptured
      cases hdecode : raw.decode with
      | ok decoded => simp [hdecode, Except.toOption] at h
      | error name =>
        refine ⟨(Failure.illFormedCapture name).response, (by decide : (400 : Nat) ∈ [400, 404, 405]),
          fun s => ?_⟩
        change (Outcome.ok _, s.emit []) = (Outcome.ok _, s)
        rw [Site.emit, List.append_nil]

/-- What a call leaves of a store, if there is one. -/
def effectOf (clock : Clock) (call? : Option Service.Request) (store : RecordStore σ) :
    RecordStore σ :=
  match call? with
  | none => store
  | some call => (call.respond clock store).2

/-! ### The store -/

/-- What the call makes of the store is told by the store alone. -/
def Moves {ε α : Type} (change : RecordStore σ → RecordStore σ) (a : Action (Site σ) ε α) : Prop :=
  ∀ s, (a s).2.store = change s.store

section Moves

variable {α : Type}

omit [Backend σ] in
theorem moves_done {ε : Type} (o : Outcome ε α) : Moves id (done o : Action (Site σ) ε α) :=
  fun _ => rfl

omit [Backend σ] in
theorem moves_count_bind (event : StatsEvent) (response : Response) :
    Moves id (Site.count clock event >>= fun _ =>
      (pure response : Action (Site σ) Failure Response)) := by
  intro s
  cases hclock : clock.moment? with
  | none => rw [bind_of_abort (Site.count_of_no_moment hclock event s)]; rfl
  | some moment => rw [bind_of_ok (Site.count_of_moment hclock event s)]; rfl

omit [Backend σ] in
/-- Work on the store comes first on every route, and nothing touches the store afterwards. -/
theorem moves_onStore_bind {action : Action (RecordStore σ) Error α}
    {next : α → Action (Site σ) Failure Response} (hnext : ∀ value, Moves id (next value)) :
    Moves (fun store => (action store).2) (Site.onStore action >>= next) := by
  intro s
  have hstore : Site.onStore action s =
      ((action s.store).1.mapError .service, { s with store := (action s.store).2 }) := rfl
  cases houtcome : (action s.store).1 with
  | ok value =>
    rw [houtcome, Outcome.mapError_ok] at hstore
    rw [bind_of_ok hstore]
    exact hnext value _
  | error e =>
    rw [houtcome, Outcome.mapError_error] at hstore
    rw [bind_of_error hstore]
  | abort =>
    rw [houtcome, Outcome.mapError_abort] at hstore
    rw [bind_of_abort hstore]

/-- The reply is made of the service's value, and the store is left alone. -/
theorem effectOf_eq (call : Service.Request) {action : Action (RecordStore σ) Error α}
    {reply : α → Service.Reply}
    (h : call.respond clock = action >>= fun value => pure (reply value)) :
    effectOf clock (some call) = fun store : RecordStore σ => (action store).2 := by
  funext store
  rw [effectOf, h, bind_pure_apply]

theorem moves_onRoute (random : Bytes) (request : Request) (route : Route) :
    Moves (effectOf clock (route.asks? request.uri))
      (onRoute clock random request route : Action (Site σ) Failure Response) := by
  cases route with
  | keyPair =>
    change Moves id (issueKeyPair random)
    unfold issueKeyPair
    split <;> exact moves_done _
  | health => exact moves_done _
  | stats =>
    intro s
    change (showStats clock s).2.store = s.store
    unfold showStats Site.onStats
    cases clock.moment? <;> rfl
  | upload key =>
    rw [Route.asks?, effectOf_eq _ rfl]
    exact moves_onStore_bind fun _ => moves_count_bind _ _
  | patch key path =>
    rw [Route.asks?, effectOf_eq _ rfl]
    exact moves_onStore_bind fun _ => moves_count_bind _ _
  | downloadJson key =>
    rw [Route.asks?, effectOf_eq _ rfl]
    exact moves_onStore_bind fun _ => moves_count_bind _ _
  | downloadPlain key field =>
    rw [Route.asks?, effectOf_eq _ rfl]
    exact moves_onStore_bind fun _ => moves_count_bind _ _
  | downloadDecoded key field =>
    rw [Route.asks?, effectOf_eq _ rfl]
    refine moves_onStore_bind fun value => ?_
    cases decodedText? value with
    | none => exact moves_done _
    | some text => exact moves_count_bind _ _
  | delete key =>
    rw [Route.asks?, effectOf_eq _ rfl]
    exact moves_onStore_bind fun _ => moves_done _

end Moves

omit [Backend σ] in
theorem store_answering (call : Action (Site σ) Failure Response) (s : Site σ) :
    (Site.answering call s).2.store = (call s).2.store := by
  unfold Site.answering
  rcases call s with ⟨o, s'⟩
  cases o <;> rfl

theorem store_dispatch (s : Site σ) :
    (dispatch clock random request s).2.store = effectOf clock request.asks? s.store := by
  unfold Request.asks?
  cases hroute : request.route? with
  | none =>
    obtain ⟨reply, -, hdispatch⟩ := @dispatch_of_no_route σ _ _ hroute clock random
    rw [hdispatch]
    rfl
  | some route =>
    rw [dispatch_of_route hroute, store_answering]
    exact moves_onRoute random request route s

/-- The layers let the request in: it is not too large, and its client has a token left. -/
structure LetIn (clock : Clock) (request : Request) (s : Site σ) : Prop where
  within : request.oversize? s.maxRequestSize = none
  allow : (admission clock request.peer s.limiter).1 = .allow

/-- The state in which a request that is let in is dispatched: its token is paid. -/
def Site.charged (clock : Clock) (request : Request) (s : Site σ) : Site σ :=
  { s with limiter := (admission clock request.peer s.limiter).2 }

theorem limited_of_letIn (random : Bytes) {s : Site σ} (h : LetIn clock request s) :
    limited clock random request s = dispatch clock random request (s.charged clock request) := by
  rw [limited, limitSize_of_within h.within, limitRate_of_allow h.allow]
  rfl

/-- A request that is not let in is refused by one of two layers, and goes no further. -/
theorem limited_of_shut (random : Bytes) {s : Site σ} (h : ¬ LetIn clock request s) :
    (∃ size, limited clock random request s =
      Site.respond (errorResponse (.requestTooLarge size s.maxRequestSize))
        [.requestTooLarge request.peer request.uri.path size s.maxRequestSize] s) ∨
    ∃ client, limited clock random request s =
      Site.respond (errorResponse (.rateLimited client)) [.rateLimited client request.uri.path]
        { s with stats := s.stats.recordRateLimitHit client } := by
  cases hoversize : request.oversize? s.maxRequestSize with
  | some size =>
    rw [limited, limitSize_of_oversize hoversize]
    exact .inl ⟨size, rfl⟩
  | none =>
    rw [limited, limitSize_of_within hoversize]
    cases hadmission : (admission clock request.peer s.limiter).1 with
    | allow => exact absurd ⟨hoversize, hadmission⟩ h
    | deny =>
      cases hpeer : request.peer with
      | none =>
        rw [hpeer] at hadmission
        cases hadmission
      | some peer =>
        rw [hpeer] at hadmission
        rw [limitRate_of_deny hpeer hadmission]
        exact .inr ⟨peer.ip.toText, rfl⟩

/-- A request that is not let in gets another status than 200 and does not reach the store. -/
theorem limited_of_not_letIn (random : Bytes) {s : Site σ} (h : ¬ LetIn clock request s) :
    ∃ reply s', limited clock random request s = (.ok reply, s') ∧ reply.status ≠ 200 ∧
      s'.store = s.store := by
  rcases limited_of_shut random h with ⟨size, hlimited⟩ | ⟨client, hlimited⟩
  · rw [hlimited]
    exact ⟨_, _, rfl, (by decide : (413 : Nat) ≠ 200), rfl⟩
  · rw [hlimited]
    exact ⟨_, _, rfl, (by decide : (429 : Nat) ≠ 200), rfl⟩

theorem store_limited (s : Site σ) :
    (limited clock random request s).2.store = s.store ∨
      (limited clock random request s).2.store = effectOf clock request.asks? s.store := by
  by_cases hin : LetIn clock request s
  · rw [limited_of_letIn random hin]
    exact .inr (store_dispatch _)
  · obtain ⟨reply, s', hlimited, -, hstore⟩ := limited_of_not_letIn random hin
    rw [hlimited]
    exact .inl hstore

/-- A request leaves the store as what it asks for leaves it, or it leaves it alone. -/
theorem store_answer (clock : Clock) (random : Bytes) (request : Request) (s : Site σ) :
    (answer clock random request s).2.store = s.store ∨
      (answer clock random request s).2.store = effectOf clock request.asks? s.store := by
  by_cases hmethod : request.method = .options
  · obtain ⟨response, -, hanswer⟩ := @answer_of_options _ _ clock random _ s hmethod
    rw [hanswer]
    exact .inl rfl
  · have hlimited := @store_limited σ _ clock random request s
    rcases hcall : limited clock random request s with ⟨outcome, s'⟩
    rw [hcall] at hlimited
    cases outcome with
    | ok reply =>
      obtain ⟨response, -, hanswer⟩ := answer_of_limited hmethod hcall
      rw [hanswer, settle_keeps (·.store) (fun _ _ => rfl)]
      exact hlimited
    | error e => exact e.elim
    | abort =>
      rw [answer_of_limited_abort hmethod hcall]
      exact hlimited

theorem retention_answer (clock : Clock) (random : Bytes) (request : Request) (s : Site σ) :
    (answer clock random request s).2.store.retention = s.store.retention := by
  rcases store_answer clock random request s with hsame | heffect
  · rw [hsame]
  · rw [heffect]
    cases request.asks? with
    | none => rfl
    | some call => exact call.retention_respond clock s.store

/-! ### Responses -/

theorem status_ne_of_failure (failure : Failure) : failure.response.status ≠ 200 := by
  cases failure with
  | service e =>
    change e.status ≠ 200
    cases e <;> simp [Error.status]
  | notBase64 => decide
  | illFormedCapture name => exact (by decide : (400 : Nat) ≠ 200)

omit [Backend σ] in
/-- What is answered is the value of a call, or the response to its failure. -/
theorem answering_eq_ok {call : Action (Site σ) Failure Response} {reply : Response} {s s' : Site σ}
    (h : Site.answering call s = (.ok reply, s')) :
    call s = (.ok reply, s') ∨
      ∃ failure s₁, call s = (.error failure, s₁) ∧ reply = failure.response ∧
        s' = s₁.emit failure.events := by
  unfold Site.answering at h
  rcases hcall : call s with ⟨outcome, s₁⟩
  rw [hcall] at h
  cases outcome with
  | ok value =>
    obtain ⟨houtcome, hstate⟩ := Prod.mk.inj h
    rw [Outcome.ok.inj houtcome, hstate]
    exact .inl rfl
  | error failure =>
    obtain ⟨houtcome, hstate⟩ := Prod.mk.inj h
    exact .inr ⟨failure, s₁, rfl, (Outcome.ok.inj houtcome).symm, hstate.symm⟩
  | abort => cases congrArg Prod.fst h

/-- The status 200 is given on a route only. -/
theorem onRoute_of_dispatched {reply : Response} {s s' : Site σ}
    (h : dispatch clock random request s = (.ok reply, s')) (hstatus : reply.status = 200) :
    ∃ route, request.route? = some route ∧
      onRoute clock random request route s = (.ok reply, s') := by
  cases hroute : request.route? with
  | none =>
    obtain ⟨refusal, hrefused, hdispatch⟩ := @dispatch_of_no_route σ _ _ hroute clock random
    rw [hdispatch] at h
    obtain rfl := Outcome.ok.inj (congrArg Prod.fst h)
    simp [hstatus] at hrefused
  | some route =>
    rw [dispatch_of_route hroute] at h
    rcases answering_eq_ok h with hserved | ⟨failure, s₁, -, rfl, -⟩
    · exact ⟨route, rfl, hserved⟩
    · exact absurd hstatus (status_ne_of_failure failure)

/-- Finishing a response leaves its body, unless it is the response to a `HEAD`. -/
theorem body_finish (hmethod : request.method ≠ .head) (response : Response) :
    (finish request (response.withHeaders sharingHeaders)).body = response.body := by
  rw [finish, if_neg hmethod]
  rfl

theorem isRead_of_get (hmethod : request.method = .get) : request.isRead = true := by
  rw [Request.isRead, hmethod]
  rfl

theorem answer_of_limited_get (hmethod : request.method = .get) {reply : Response} {s s' : Site σ}
    (h : limited clock random request s = (.ok reply, s')) :
    answer clock random request s =
      settle clock (finish request (reply.withHeaders sharingHeaders)) s' :=
  answer_eq_settle (by rw [hmethod]; decide) h

/-- What is answered with status 200 has been answered on its route, a preflight apart. -/
theorem exists_of_served {response : Response} {s s' : Site σ} (hmethod : request.method ≠ .options)
    (h : answer clock random request s = (.ok response, s')) (hstatus : response.status = 200) :
    ∃ route s₁ reply, request.route? = some route ∧ s₁.store = s.store ∧
      onRoute clock random request route s₁ = (.ok reply, s') ∧
      response = finish request (reply.withHeaders sharingHeaders) := by
  by_cases hin : LetIn clock request s
  case neg =>
    obtain ⟨reply, s₂, hlimited, hreply, -⟩ := limited_of_not_letIn random hin
    rw [answer_eq_settle hmethod hlimited] at h
    obtain rfl := response_of_settle (congrArg Prod.fst h)
    rw [status_finish] at hstatus
    exact absurd hstatus hreply
  have hlimited := limited_of_letIn random hin
  rcases hdispatch : dispatch clock random request (s.charged clock request) with ⟨outcome, s₂⟩
  rw [hdispatch] at hlimited
  cases outcome with
  | error e => exact e.elim
  | abort =>
    rw [answer_of_limited_abort hmethod hlimited] at h
    cases congrArg Prod.fst h
  | ok reply =>
    rw [answer_eq_settle hmethod hlimited] at h
    obtain rfl := response_of_settle (congrArg Prod.fst h)
    rw [settle_of_ok (by omega)] at h
    obtain rfl := (Prod.mk.inj h).2
    rw [status_finish] at hstatus
    obtain ⟨route, hroute, hserved⟩ := onRoute_of_dispatched hdispatch hstatus
    exact ⟨route, s.charged clock request, reply, hroute, rfl, hserved, rfl⟩

/-- A `GET` that is answered with status 200 gets the body that its route has made. -/
theorem exists_of_answered {response : Response} {s s' : Site σ} (hmethod : request.method = .get)
    (h : answer clock random request s = (.ok response, s')) (hstatus : response.status = 200) :
    ∃ route s₁ reply, request.route? = some route ∧ s₁.store = s.store ∧
      onRoute clock random request route s₁ = (.ok reply, s') ∧ response.body = reply.body := by
  obtain ⟨route, s₁, reply, hroute, hstore, hserved, rfl⟩ :=
    exists_of_served (by rw [hmethod]; decide) h hstatus
  exact ⟨route, s₁, reply, hroute, hstore, hserved, body_finish (by rw [hmethod]; decide) reply⟩

/-- A `GET` that is let in is answered as its route answers it. -/
theorem answer_of_onRoute {route : Route} {reply : Response} {s s' : Site σ}
    (hmethod : request.method = .get) (hin : LetIn clock request s)
    (hroute : request.route? = some route)
    (h : onRoute clock random request route (s.charged clock request) = (.ok reply, s'))
    (hstatus : reply.status = 200) :
    ∃ response, answer clock random request s = (.ok response, s') ∧ response.status = 200 ∧
      response.body = reply.body := by
  have hdispatch : dispatch clock random request (s.charged clock request) = (.ok reply, s') := by
    rw [dispatch_of_route hroute, Site.answering, h]
  have hlimited : limited clock random request s = (.ok reply, s') := by
    rw [limited_of_letIn random hin, hdispatch]
  have hanswer := answer_of_limited_get hmethod hlimited
  have hdressed : (finish request (reply.withHeaders sharingHeaders)).status = 200 := by
    rw [status_finish]
    exact hstatus
  rw [settle_of_ok (by omega)] at hanswer
  exact ⟨_, hanswer, hdressed, body_finish (by rw [hmethod]; decide) reply⟩

/-! ### Handlers -/

section Handlers

variable {α : Type} {action : Action (RecordStore σ) Error α} {event : StatsEvent}
  {f : α → Response} {s : Site σ}

omit [Backend σ] in
/-- A handler that counts its success ends with a response if the service ends with a value. -/
theorem onStore_count_eq_ok {reply : Response} {s' : Site σ}
    (h : (Site.onStore action >>= fun value => Site.count clock event >>= fun _ =>
      (pure (f value) : Action (Site σ) Failure Response)) s = (.ok reply, s')) :
    ∃ value, action s.store = (.ok value, s'.store) ∧ reply = f value := by
  obtain ⟨value, s₁, hstore, h⟩ := bind_eq_ok h
  have hmoves := @moves_count_bind σ clock event (f value) s₁
  obtain ⟨_, _, -, hpure⟩ := bind_eq_ok h
  rw [h] at hmoves
  obtain ⟨houtcome, rfl⟩ := Prod.mk.inj hstore
  refine ⟨value, Prod.ext ((Outcome.mapError_eq_ok_iff _ _ _).1 houtcome) hmoves.symm, ?_⟩
  exact (Outcome.ok.inj (congrArg Prod.fst hpure)).symm

omit [Backend σ] in
theorem onStore_count_of_ok {value : α} {store : RecordStore σ}
    (hmoment : clock.moment?.isSome = true) (h : action s.store = (.ok value, store)) :
    ∃ s', (Site.onStore action >>= fun value => Site.count clock event >>= fun _ =>
        (pure (f value) : Action (Site σ) Failure Response)) s = (.ok (f value), s') ∧
      s'.store = store := by
  obtain ⟨moment, hmoment⟩ := Option.isSome_iff_exists.1 hmoment
  have hstore : (Site.onStore action : Action (Site σ) Failure α) s =
      (.ok value, { s with store }) := by
    rw [Site.onStore, h]
    rfl
  rw [bind_of_ok hstore, bind_of_ok (Site.count_of_moment hmoment event _)]
  exact ⟨_, rfl, rfl⟩

end Handlers

/-! ### Samples -/

def sampleGet (path query : String) : Request where
  method := .get
  uri := ⟨path.toList, some query.toList⟩
  headers := []
  peer := none

end DeadDrop.Http
