import DeadDrop.Proofs.Http.Exchange
import DeadDrop.Store.Faulty

/-!
# What the operator is told about a request

A rejection is reported by whoever makes it: a layer audits the size or the client that it refuses, and
where a failure becomes a response, a refused key is audited and a fault is logged. So what is reported
can be followed from the inside to the outside. A handler writes nothing to the log and fails with one
error at most (`failsOnly_onRoute`), a dispatch reports that error or nothing (`ended_dispatch`), and a
layer that refuses a request keeps it from the others.

The reasons to report exclude one another, and each of them can be read off the response and the request
(`Report.Occasion`). A fault can be read off the body, except where there is none: to a `HEAD` only the
length of the body is sent.
-/

namespace DeadDrop

open DeadDrop.Action

/-! ### Events -/

/-- What an event reports. -/
inductive Report where
  | rateLimited
  | requestTooLarge
  | invalidCredential
  | failed
  deriving DecidableEq, Repr

/-- The type that an audit event names. -/
def LogEvent.auditType? (event : LogEvent) : Option Text :=
  if event.target = auditTarget then
    match event.fields.lookup "event_type".toList with
    | some (.text type) => some type
    | _ => none
  else none

/-- The event makes the report. -/
def Report.isMadeBy (event : LogEvent) : Report → Bool
  | .rateLimited => event.auditType? = some "rate_limited".toList
  | .requestTooLarge => event.auditType? = some "request_too_large".toList
  | .invalidCredential => event.auditType? = some "invalid_credential".toList
  | .failed =>
    event.level = .error && event.target = LogEvent.httpTarget &&
      event.message = "Request failed".toList

/-- The event makes that report and no other one. -/
def Report.MadeBy (event : LogEvent) (report : Report) : Prop :=
  ∀ other : Report, other.isMadeBy event = decide (other = report)

namespace LogEvent

theorem madeBy_rateLimited (client path : Text) :
    Report.rateLimited.MadeBy (.rateLimited client path) := by
  intro other
  cases other <;> rfl

theorem madeBy_requestTooLarge (peer : Option SocketAddress) (path : Text) (size max : Nat) :
    Report.requestTooLarge.MadeBy (.requestTooLarge peer path size max) := by
  intro other
  cases other <;> rfl

theorem madeBy_invalidCredential (reason : Text) :
    Report.invalidCredential.MadeBy (.invalidCredential reason) := by
  intro other
  cases other <;> rfl

theorem madeBy_requestFailed (e : Error) : Report.failed.MadeBy (.requestFailed e) := by
  intro other
  cases other <;> rfl

end LogEvent

/-- The number is one if the condition holds, and zero if it does not. -/
def OnceIff (p : Prop) (n : Nat) : Prop := (p → n = 1) ∧ (¬ p → n = 0)

/-- Every report is made once if there is an occasion for it and not at all otherwise, and every event
makes one of the reports. -/
structure ReportedOnce (occasion : Report → Prop) (events : List LogEvent) : Prop where
  once : ∀ report, OnceIff (occasion report) (events.countP report.isMadeBy)
  nothingElse : ∀ event ∈ events, ∃ report : Report, report.isMadeBy event = true

theorem reportedOnce_nil {occasion : Report → Prop} (h : ∀ report, ¬ occasion report) :
    ReportedOnce occasion [] where
  once report := ⟨fun hoccasion => absurd hoccasion (h report), fun _ => rfl⟩
  nothingElse _ hmem := absurd hmem List.not_mem_nil

theorem reportedOnce_singleton {occasion : Report → Prop} {event : LogEvent} {report : Report}
    (hmade : report.MadeBy event) (h : ∀ other, occasion other ↔ other = report) :
    ReportedOnce occasion [event] := by
  constructor
  case once =>
    intro other
    rw [List.countP_singleton, hmade other]
    constructor
    · intro hoccasion
      simp [(h other).1 hoccasion]
    · intro hoccasion
      have hother : other ≠ report := fun heq => hoccasion ((h other).2 heq)
      simp [hother]
  case nothingElse =>
    intro found hfound
    obtain rfl := List.mem_singleton.1 hfound
    exact ⟨report, by simp [hmade report]⟩

namespace Http

/-! ### Handlers -/

/-- The key with which a route writes. -/
def Route.uploadKey? : Route → Option Text
  | .upload key | .patch key _ | .delete key => some key
  | .keyPair | .health | .stats | .downloadJson _ | .downloadPlain _ _ | .downloadDecoded _ _ => none

/-- The failures of a handler that does not refuse a key. -/
def Failure.OfHandler : Failure → Prop
  | .service e => e.OfRecord
  | .notBase64 => True
  | .illFormedCapture _ => False

section Handlers

variable {σ α : Type} {clock : Clock} {event : StatsEvent}

theorem keeps_log_onStats {ε : Type} (change : Moment → Stats → α × Stats) :
    Keeps Site.log (Site.onStats clock change : Action (Site σ) ε α) := by
  intro s
  unfold Site.onStats
  cases clock.moment? <;> rfl

theorem keeps_log_onStore (action : Action (RecordStore σ) Error α) :
    Keeps Site.log (Site.onStore action) := fun _ => rfl

theorem keeps_log_count_bind (response : Response) :
    Keeps Site.log (Site.count clock event >>= fun _ =>
      (pure response : Action (Site σ) Failure Response)) :=
  (keeps_log_onStats _).bind fun _ _ => rfl

/-- No handler writes to the log. -/
theorem keeps_log_onRoute [Backend σ] (random : Bytes) (request : Request) (route : Route) :
    Keeps Site.log (onRoute clock random request route : Action (Site σ) Failure Response) := by
  cases route with
  | keyPair =>
    change Keeps Site.log (issueKeyPair random)
    unfold issueKeyPair
    split <;> exact fun _ => rfl
  | health => exact fun _ => rfl
  | stats => exact keeps_log_onStats _
  | upload key => exact (keeps_log_onStore _).bind fun _ => keeps_log_count_bind _
  | patch key path => exact (keeps_log_onStore _).bind fun _ => keeps_log_count_bind _
  | downloadJson key => exact (keeps_log_onStore _).bind fun _ => keeps_log_count_bind _
  | downloadPlain key field => exact (keeps_log_onStore _).bind fun _ => keeps_log_count_bind _
  | downloadDecoded key field =>
    refine (keeps_log_onStore _).bind fun value => ?_
    cases decodedText? value with
    | none => exact fun _ => rfl
    | some text => exact keeps_log_count_bind _
  | delete key => exact (keeps_log_onStore _).bind fun _ _ => rfl

theorem failsOnly_onStats {P : Failure → Prop} (change : Moment → Stats → α × Stats) :
    FailsOnly P (Site.onStats clock change : Action (Site σ) Failure α) := by
  intro s failure h
  unfold Site.onStats at h
  cases hclock : clock.moment? <;> simp [hclock] at h

theorem failsOnly_count_bind {P : Failure → Prop} (response : Response) :
    FailsOnly P (Site.count clock event >>= fun _ =>
      (pure response : Action (Site σ) Failure Response)) :=
  (failsOnly_onStats _).bind fun _ => failsOnly_pure response

theorem failsOnly_onStore {action : Action (RecordStore σ) Error α}
    (h : FailsOnly Error.OfRecord action) : FailsOnly Failure.OfHandler (Site.onStore action) := by
  intro s failure hfailure
  change (action s.store).1.mapError .service = .error failure at hfailure
  cases houtcome : (action s.store).1 with
  | ok value => simp [houtcome] at hfailure
  | error e =>
    rw [houtcome, Outcome.mapError_error] at hfailure
    rw [← Outcome.error.inj hfailure]
    exact h s.store e houtcome
  | abort => simp [houtcome] at hfailure

variable [Backend σ]

theorem failsOnly_onRoute {random : Bytes} (hrandom : random.length = Credential.keyBytes)
    (request : Request) {route : Route}
    (hvalid : ∀ key, route.uploadKey? = some key → Credential.validate key = .ok ()) :
    FailsOnly Failure.OfHandler
      (onRoute clock random request route : Action (Site σ) Failure Response) := by
  have hwrite : ∀ {key : Text} {α : Type} {action : Action (RecordStore σ) Error α},
      route.uploadKey? = some key → FailsOnly (Error.OfWrite key) action →
        FailsOnly Failure.OfHandler (Site.onStore action) := fun hkey h =>
    failsOnly_onStore (h.mono fun _ he => he.ofRecord (hvalid _ hkey))
  cases route with
  | keyPair =>
    obtain ⟨pair, hpair⟩ := Service.exists_keyPair hrandom
    change FailsOnly Failure.OfHandler (issueKeyPair random)
    rw [issueKeyPair, hpair]
    exact failsOnly_pure _
  | health => exact failsOnly_pure _
  | stats => exact failsOnly_onStats _
  | upload key =>
    exact (hwrite rfl (Service.failsOnly_upload clock key _)).bind fun _ => failsOnly_count_bind _
  | patch key path =>
    exact (hwrite rfl (Service.failsOnly_patch clock key path _)).bind fun _ =>
      failsOnly_count_bind _
  | downloadJson key =>
    exact (failsOnly_onStore (RecordStore.failsOnly_getBytes clock _)).bind fun _ =>
      failsOnly_count_bind _
  | downloadPlain key field =>
    exact (failsOnly_onStore (Service.failsOnly_downloadField clock key field)).bind fun _ =>
      failsOnly_count_bind _
  | downloadDecoded key field =>
    refine (failsOnly_onStore (Service.failsOnly_downloadField clock key field)).bind fun value => ?_
    cases decodedText? value with
    | none => exact failsOnly_fail trivial
    | some text => exact failsOnly_count_bind _
  | delete key =>
    exact (hwrite rfl (Service.failsOnly_delete clock key)).bind fun _ => failsOnly_pure _

omit [Backend σ] in
theorem onStore_of_error {action : Action (RecordStore σ) Error α} {e : Error} {s : Site σ}
    (h : action s.store = (.error e, s.store)) :
    Site.onStore action s = (.error (.service e), s) := by
  rw [Site.onStore, h]
  rfl

/-- A write with a refused key does nothing. -/
theorem onRoute_of_refused {route : Route} {key : Text} {e : Error}
    (hkey : route.uploadKey? = some key) (he : Service.downloadKeyOf key = .error e)
    (random : Bytes) (request : Request) (s : Site σ) :
    onRoute clock random request route s = (.error (.service e), s) := by
  have hrefused : ∀ {α : Type} (next : Text → Action (RecordStore σ) Error α),
      Site.onStore (done (.ofExcept (Service.downloadKeyOf key)) >>= next) s =
        (.error (.service e), s) := by
    intro α next
    apply onStore_of_error
    rw [he]
    rfl
  cases route with
  | upload | patch | delete =>
    obtain rfl := Option.some.inj hkey
    exact bind_of_error (hrefused _)
  | keyPair | health | stats | downloadJson | downloadPlain | downloadDecoded => cases hkey

end Handlers

/-! ### Dispatch -/

/-- The request writes with a key that is refused. -/
def Request.RejectsKey (request : Request) : Prop :=
  ∃ key cause, request.route?.bind Route.uploadKey? = some key ∧
    Credential.validate key = .error cause

/-- What is sent to a client when the server is at fault. -/
def faultResponse : Response := .plain 500 "Internal Server Error\n".toList

/-- How a request that is dispatched ends: with a reply, and with the events that report it. -/
inductive Ended (request : Request) : Response → List LogEvent → Prop
  | quiet {reply : Response}
      (status : reply.status ≠ 413 ∧ reply.status ≠ 429 ∧ reply.status ≠ 500)
      (accepted : ¬ request.RejectsKey) : Ended request reply []
  | notBase64 (accepted : ¬ request.RejectsKey) : Ended request Failure.notBase64.response []
  | refusedKey (reason : Text) (rejected : request.RejectsKey) :
    Ended request (errorResponse (.invalidCredential reason)) [.invalidCredential reason]
  | fault (e : Error) (accepted : ¬ request.RejectsKey) :
    Ended request faultResponse [.requestFailed e]

theorem ended_of_failure {request : Request} (accepted : ¬ request.RejectsKey) {failure : Failure}
    (h : failure.OfHandler) : Ended request failure.response failure.events := by
  cases failure with
  | service e =>
    cases e with
    | notFound =>
      exact .quiet (by decide : (404 : Nat) ≠ 413 ∧ (404 : Nat) ≠ 429 ∧ (404 : Nat) ≠ 500) accepted
    | invalidPath =>
      exact .quiet (by decide : (400 : Nat) ≠ 413 ∧ (400 : Nat) ≠ 429 ∧ (400 : Nat) ≠ 500) accepted
    | decode | storage => exact .fault _ accepted
    | _ => exact h.elim
  | notBase64 => exact .notBase64 accepted
  | illFormedCapture name => exact h.elim

section Answer

variable {σ : Type} [Backend σ] {clock : Clock} {random : Bytes} {request : Request}
  {reply : Response} {s s' : Site σ}

/-- A handler is reported by how it ends: its failure, if it has one, is reported, and nothing else. -/
theorem ended_of_answering (hrandom : random.length = Credential.keyBytes) {route : Route}
    (hroute : request.route? = some route)
    (h : Site.answering (onRoute clock random request route) s = (.ok reply, s')) :
    ∃ events, s'.log = s.log ++ events ∧ Ended request reply events := by
  have hlog := @keeps_log_onRoute σ clock _ random request route s
  by_cases hrejects : request.RejectsKey
  case pos =>
    obtain ⟨key, cause, hkey, hcause⟩ := id hrejects
    rw [hroute, Option.bind_some] at hkey
    have hrefused := @onRoute_of_refused σ clock _ route key _ hkey
      (Service.downloadKeyOf_eq_error_iff.2 ⟨cause, hcause, rfl⟩) random request s
    rcases answering_eq_ok h with hserved | ⟨failure, s₁, hfailed, rfl, rfl⟩
    · rw [hrefused] at hserved
      cases congrArg Prod.fst hserved
    · rw [hrefused] at hfailed
      obtain ⟨houtcome, rfl⟩ := Prod.mk.inj hfailed
      obtain rfl := Outcome.error.inj houtcome
      exact ⟨_, rfl, .refusedKey cause.message hrejects⟩
  case neg =>
    have hvalid : ∀ key, route.uploadKey? = some key → Credential.validate key = .ok () := by
      intro key hkey
      cases hvalidate : Credential.validate key with
      | ok _ => rfl
      | error cause =>
        exact absurd ⟨key, cause, by rw [hroute, Option.bind_some, hkey], hvalidate⟩ hrejects
    rcases answering_eq_ok h with hserved | ⟨failure, s₁, hfailed, rfl, rfl⟩
    · have hstatus : reply.status = 200 := by
        have hserves := serves_onRoute clock random request route s
        rw [hserved] at hserves
        cases hserves with
        | succeeded status _ => exact status
      rw [hserved] at hlog
      exact ⟨[], hlog.trans (List.append_nil _).symm, .quiet (by omega) hrejects⟩
    · rw [hfailed] at hlog
      have hhandler : failure.OfHandler :=
        failsOnly_onRoute hrandom request hvalid s failure (congrArg Prod.fst hfailed)
      exact ⟨failure.events, congrArg (· ++ failure.events) hlog,
        ended_of_failure hrejects hhandler⟩

theorem ended_dispatch (hrandom : random.length = Credential.keyBytes)
    (h : dispatch clock random request s = (.ok reply, s')) :
    ∃ events, s'.log = s.log ++ events ∧ Ended request reply events := by
  cases hroute : request.route? with
  | none =>
    obtain ⟨refusal, hstatus, hdispatch⟩ := @dispatch_of_no_route σ _ _ hroute clock random
    rw [hdispatch] at h
    obtain ⟨houtcome, rfl⟩ := Prod.mk.inj h
    obtain rfl := Outcome.ok.inj houtcome
    refine ⟨[], (List.append_nil _).symm, .quiet ?_ ?_⟩
    · simp only [List.mem_cons, List.not_mem_nil, or_false] at hstatus
      omega
    · rintro ⟨key, cause, hkey, -⟩
      rw [hroute] at hkey
      cases hkey
  | some route =>
    rw [dispatch_of_route hroute] at h
    exact ended_of_answering hrandom hroute h

/-! ### Responses -/

/-- A reply as it is sent. -/
def dressed (request : Request) (reply : Response) : Response :=
  finish request (reply.withHeaders sharingHeaders)

/-- The response tells of a fault. To a `HEAD` it does so by the length of the body that it has
not. -/
def IsFault (request : Request) (response : Response) : Prop :=
  response.status = 500 ∧
    if request.method = .head then
      ("content-length".toList, Text.ofNat faultResponse.body.length) ∈ response.headers
    else response.body = faultResponse.body

theorem not_isFault_of_status {response : Response} (h : response.status ≠ 500) :
    ¬ IsFault request response := fun hfault => h hfault.1

@[simp]
theorem status_errorResponse (e : Error) : (errorResponse e).status = e.status := rfl

@[simp]
theorem status_faultResponse : faultResponse.status = 500 := rfl

@[simp]
theorem status_notBase64 : Failure.notBase64.response.status = 500 := rfl

@[simp]
theorem status_dressed (request : Request) (reply : Response) :
    (dressed request reply).status = reply.status := status_finish request _

omit [Backend σ] in
theorem headers_dressed_head (hmethod : request.method = .head) (reply : Response) :
    (dressed request reply).headers =
      reply.headers ++ sharingHeaders ++ [("content-length".toList, Text.ofNat reply.body.length)] := by
  have hread : request.isRead = true := by
    rw [Request.isRead, hmethod]
    rfl
  rw [dressed, finish, if_pos hmethod, hread]
  simp [Response.withHeaders]

theorem isFault_dressed_fault (request : Request) : IsFault request (dressed request faultResponse) := by
  refine ⟨status_dressed request faultResponse, ?_⟩
  by_cases hmethod : request.method = .head
  · rw [if_pos hmethod, headers_dressed_head hmethod]
    exact List.mem_append_right _ List.mem_cons_self
  · rw [if_neg hmethod]
    exact body_finish hmethod faultResponse

theorem not_isFault_dressed_notBase64 (request : Request) :
    ¬ IsFault request (dressed request Failure.notBase64.response) := by
  rintro ⟨-, h⟩
  by_cases hmethod : request.method = .head
  · rw [if_pos hmethod, headers_dressed_head hmethod] at h
    exact absurd h (by decide)
  · rw [if_neg hmethod, dressed, body_finish hmethod] at h
    exact absurd h (by decide)

/-! ### Occasions -/

/-- The layers let the request in, and its handler refuses the key. -/
def RejectsKey (clock : Clock) (request : Request) (s : Site σ) : Prop :=
  LetIn clock request s ∧ request.RejectsKey

/-- When a report is due. -/
def Occasion (clock : Clock) (request : Request) (s : Site σ) (response : Response) : Report → Prop
  | .rateLimited => response.status = 429
  | .requestTooLarge => response.status = 413
  | .invalidCredential => RejectsKey clock request s
  | .failed => IsFault request response

omit [Backend σ] in
/-- The end of a request that is let in is an occasion for what has been reported at it. -/
theorem Ended.reportedOnce {events : List LogEvent} (hin : LetIn clock request s)
    (h : Ended request reply events) :
    ReportedOnce (Occasion clock request s (dressed request reply)) events := by
  cases h with
  | quiet status accepted =>
    refine reportedOnce_nil fun report => ?_
    cases report <;> simp [Occasion, RejectsKey, not_isFault_of_status, status, accepted]
  | notBase64 accepted =>
    refine reportedOnce_nil fun report => ?_
    cases report <;> simp [Occasion, RejectsKey, not_isFault_dressed_notBase64, accepted]
  | refusedKey reason rejected =>
    refine reportedOnce_singleton (LogEvent.madeBy_invalidCredential reason) fun report => ?_
    cases report <;> simp [Occasion, RejectsKey, not_isFault_of_status, Error.status, hin, rejected]
  | fault e accepted =>
    refine reportedOnce_singleton (LogEvent.madeBy_requestFailed e) fun report => ?_
    cases report <;> simp [Occasion, RejectsKey, isFault_dressed_fault, accepted]

/-- A layer that refuses a request is the only one to report it. -/
theorem reportedOnce_of_shut (h : limited clock random request s = (.ok reply, s'))
    (hshut : ¬ LetIn clock request s) :
    ∃ events, s'.log = s.log ++ events ∧
      ReportedOnce (Occasion clock request s (dressed request reply)) events := by
  rcases limited_of_shut random hshut with ⟨size, hlimited⟩ | ⟨client, hlimited⟩
  · rw [hlimited] at h
    obtain ⟨houtcome, rfl⟩ := Prod.mk.inj h
    obtain rfl := Outcome.ok.inj houtcome
    refine ⟨_, rfl, reportedOnce_singleton (LogEvent.madeBy_requestTooLarge _ _ _ _) fun report => ?_⟩
    cases report <;> simp [Occasion, RejectsKey, not_isFault_of_status, Error.status, hshut]
  · rw [hlimited] at h
    obtain ⟨houtcome, rfl⟩ := Prod.mk.inj h
    obtain rfl := Outcome.ok.inj houtcome
    refine ⟨_, rfl, reportedOnce_singleton (LogEvent.madeBy_rateLimited _ _) fun report => ?_⟩
    cases report <;> simp [Occasion, RejectsKey, not_isFault_of_status, Error.status, hshut]

theorem reportedOnce_limited (hrandom : random.length = Credential.keyBytes)
    (h : limited clock random request s = (.ok reply, s')) :
    ∃ events, s'.log = s.log ++ events ∧
      ReportedOnce (Occasion clock request s (dressed request reply)) events := by
  by_cases hin : LetIn clock request s
  · rw [limited_of_letIn random hin] at h
    obtain ⟨events, hlog, hended⟩ := ended_dispatch hrandom h
    exact ⟨events, hlog, hended.reportedOnce hin⟩
  · exact reportedOnce_of_shut h hin

/-- **Every rejection is reported once, and nothing else is.** Whatever the storage holds and however
it fails, an answer to a request is accompanied by one event for each report that is due
(`Occasion`), and by no other event. The random bytes are those of one key, as a new key needs them. -/
theorem rejections_reported_once (hrandom : random.length = Credential.keyBytes) {response : Response}
    (h : answer clock random request s = (.ok response, s')) :
    ∃ events, s'.log = s.log ++ events ∧
      ReportedOnce (Occasion clock request s response) events := by
  by_cases hmethod : request.method = .options
  case pos =>
    obtain ⟨preflight, hstatus, hanswer⟩ := @answer_of_options _ _ clock random _ s hmethod
    rw [hanswer] at h
    obtain ⟨houtcome, rfl⟩ := Prod.mk.inj h
    obtain rfl := Outcome.ok.inj houtcome
    have hroute : request.route? = none := by
      rw [Request.route?, Request.isRead, hmethod]
      rfl
    refine ⟨[], (List.append_nil _).symm, reportedOnce_nil fun report => ?_⟩
    cases report <;> simp [Occasion, RejectsKey, Request.RejectsKey, not_isFault_of_status, hstatus, hroute]
  case neg =>
    rcases hlimited : limited clock random request s with ⟨outcome, s₁⟩
    cases outcome with
    | error e => exact e.elim
    | abort =>
      rw [answer_of_limited_abort hmethod hlimited] at h
      cases congrArg Prod.fst h
    | ok reply =>
      have hanswer := answer_eq_settle hmethod hlimited
      rw [h] at hanswer
      have hresponse : response = dressed request reply :=
        response_of_settle (congrArg Prod.fst hanswer.symm)
      have hlog : s'.log = s₁.log :=
        calc s'.log = (settle clock (dressed request reply) s₁).2.log :=
              congrArg (fun result => result.2.log) hanswer
          _ = s₁.log := settle_keeps Site.log (fun _ _ => rfl) clock _ s₁
      obtain ⟨events, hevents, hreported⟩ := reportedOnce_limited hrandom hlimited
      rw [hresponse]
      exact ⟨events, hlog.trans hevents, hreported⟩

end Answer

/-! ### Samples -/

/-- A site whose storage cannot be read. -/
def brokenSite : Site (Faulty Memory) :=
  let backend : Faulty Memory :=
    { inner := .empty, off := [(.read, "disk on fire".toList)], sweeps := 0 }
  .started ⟨backend, 60000000000⟩ Limiter.sampleLimiter 10240 ⟨0, 0⟩

def sampleRandom : Bytes := List.replicate Credential.keyBytes 0

def recordGet : Request := sampleGet "/d/k/json" ""

theorem rejections_reported_once_sample :
    sampleRandom.length = Credential.keyBytes ∧
      ∃ response s', answer ⟨0, 0⟩ sampleRandom recordGet brokenSite = (.ok response, s') ∧
        response.status = 500 ∧ ∃ events, s'.log = brokenSite.log ++ events ∧
          ReportedOnce (Occasion ⟨0, 0⟩ recordGet brokenSite response) events := by
  have hrandom : sampleRandom.length = Credential.keyBytes := by decide
  obtain ⟨response, s', hanswer, hstatus⟩ :=
    @exists_of_map _ _ (answer ⟨0, 0⟩ sampleRandom recordGet brokenSite) (·.status) 500
      (by decide +kernel)
  exact ⟨hrandom, response, s', hanswer, hstatus, rejections_reported_once hrandom hanswer⟩

/-- The body does not always tell what has been reported: a fault is, but a `HEAD` gets no body. -/
theorem not_faults_reported_by_body :
    ¬ ∀ (clock : Clock) (random : Bytes) (request : Request) (s s' : Site (Faulty Memory))
      (response : Response) (events : List LogEvent), random.length = Credential.keyBytes →
      answer clock random request s = (.ok response, s') → s'.log = s.log ++ events →
      OnceIff (response.status = 500 ∧ response.body = faultResponse.body)
        (events.countP Report.failed.isMadeBy) := by
  intro hbody
  let request : Request := { recordGet with method := .head }
  obtain ⟨response, s', hanswer, hempty⟩ :=
    @exists_of_map _ _ (answer ⟨0, 0⟩ sampleRandom request brokenSite) (·.body) []
      (by decide +kernel)
  have hreported : (answer ⟨0, 0⟩ sampleRandom request brokenSite).2.log.countP
      Report.failed.isMadeBy = 1 := by
    decide +kernel
  rw [hanswer] at hreported
  have honce := hbody ⟨0, 0⟩ sampleRandom request brokenSite s' response s'.log (by decide) hanswer rfl
  have hnone := honce.2 fun hfault => absurd (hempty.symm.trans hfault.2) (by decide)
  rw [hreported] at hnone
  exact absurd hnone (by decide)

end Http

end DeadDrop
