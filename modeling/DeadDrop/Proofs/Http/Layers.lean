import DeadDrop.Proofs.Http.Dispatch
import DeadDrop.Proofs.Limiter.Clients

/-!
# What the layers do with a request

Between a request and its route stand four layers. Who is asked first decides: a preflight is
answered before the size is looked at, a size that is too large is refused before the limiter is
asked, and a client that is denied does not reach the route. `Limited` lists the ends of a request
that is no preflight, each with its reply and the state in which it is given. Then the reply is
settled (`Answered`): an error is counted, and at a time that is no moment it has no answer.

The limiter is asked about a request at most once. Whom it is asked about can be told from the
request alone, and a limiter that denies stays as it is, so what an answer leaves of the limiter
does not depend on how the request ends.
-/

namespace DeadDrop.Http

open DeadDrop.Action

variable {σ : Type}

/-- The size that a request declares, if it is more than is allowed. -/
def Request.oversize? (request : Request) (max : Nat) : Option Nat :=
  request.size?.filter fun size => decide (max < size)

/-- Who is charged for a request: its peer, unless the request is answered without asking the
limiter. -/
def Request.asker? (request : Request) (max : Nat) : Option SocketAddress :=
  if request.method = .options then none
  else
    match request.oversize? max with
    | some _ => none
    | none => request.peer

/-- What the limiter says if there is someone to be charged. -/
def admission (clock : Clock) (asker? : Option SocketAddress) (l : Limiter) : Admission × Limiter :=
  match asker? with
  | none => (.allow, l)
  | some peer => l.checkSocket clock.monotonic peer

/-- A client that is denied keeps its bucket as it is. -/
theorem limiter_of_deny {clock : Clock} {asker? : Option SocketAddress} {l : Limiter}
    (h : (admission clock asker? l).1 = .deny) : (admission clock asker? l).2 = l := by
  cases asker? with
  | none => rfl
  | some peer => exact @Limiter.answer_of_deny ⟨clock, .socket peer⟩ l (congrArg Except.ok h)

/-! ### Inside of the error count -/

section Which

variable {request : Request} {max : Nat}

theorem asker?_of_options (h : request.method = .options) : request.asker? max = none := by
  rw [Request.asker?, if_pos h]

theorem asker?_of_oversize {size : Nat} (h : request.oversize? max = some size) :
    request.asker? max = none := by
  rw [Request.asker?, h]
  split <;> rfl

theorem asker?_of_within (hmethod : request.method ≠ .options)
    (h : request.oversize? max = none) : request.asker? max = request.peer := by
  rw [Request.asker?, if_neg hmethod, h]

end Which

theorem limitSize_of_oversize {inner : Answerer σ} {request : Request} {s : Site σ} {size : Nat}
    (h : request.oversize? s.maxRequestSize = some size) :
    limitSize inner request s =
      Site.respond (errorResponse (.requestTooLarge size s.maxRequestSize))
        [.requestTooLarge request.peer request.uri.path size s.maxRequestSize] s := by
  obtain ⟨hsize, hlarge⟩ := Option.filter_eq_some_iff.1 h
  rw [limitSize, hsize]
  exact if_pos (of_decide_eq_true hlarge)

theorem limitSize_of_within {inner : Answerer σ} {request : Request} {s : Site σ}
    (h : request.oversize? s.maxRequestSize = none) :
    limitSize inner request s = inner request s := by
  rw [limitSize]
  cases hsize : request.size? with
  | none => rfl
  | some size =>
    have hfits : ¬ s.maxRequestSize < size := by
      simpa [Request.oversize?, hsize, Option.filter_some] using h
    exact if_neg hfits

theorem limitRate_of_deny {clock : Clock} {inner : Answerer σ} {request : Request}
    {peer : SocketAddress} {s : Site σ} (hpeer : request.peer = some peer)
    (h : (admission clock (some peer) s.limiter).1 = .deny) :
    limitRate clock inner request s =
      Site.respond (errorResponse (.rateLimited peer.ip.toText))
        [.rateLimited peer.ip.toText request.uri.path]
        { s with stats := s.stats.recordRateLimitHit peer.ip.toText } := by
  have hkept := limiter_of_deny h
  rw [limitRate, hpeer]
  rw [admission] at h hkept
  simp only [h, hkept]

theorem limitRate_of_allow {clock : Clock} {inner : Answerer σ} {request : Request} {s : Site σ}
    (h : (admission clock request.peer s.limiter).1 = .allow) :
    limitRate clock inner request s =
      inner request { s with limiter := (admission clock request.peer s.limiter).2 } := by
  rw [limitRate]
  cases hpeer : request.peer with
  | none => rfl
  | some peer =>
    rw [hpeer, admission] at h
    simp only [h, admission]

/-- What stands inside of the preflights and of the count of errors. -/
def limited [Backend σ] (clock : Clock) (random : Bytes) : Answerer σ :=
  limitSize (limitRate clock (dispatch clock random))

/-- How a request that is no preflight ends there. -/
inductive Limited (clock : Clock) (request : Request) (s : Site σ) :
    Outcome Empty Response × Site σ → Prop
  | tooLarge {response : Response} {size : Nat}
      (oversize : request.oversize? s.maxRequestSize = some size) (status : response.status = 413)
      (event : LogEvent) : Limited clock request s (.ok response, s.emit [event])
  | denied {response : Response} {peer : SocketAddress}
      (asker : request.asker? s.maxRequestSize = some peer)
      (deny : (admission clock (some peer) s.limiter).1 = .deny)
      (status : response.status = 429) (event : LogEvent) :
      Limited clock request s (.ok response,
        Site.emit [event] { s with stats := s.stats.recordRateLimitHit peer.ip.toText })
  | admitted {response : Response} {s' : Site σ}
      (allow : (admission clock (request.asker? s.maxRequestSize) s.limiter).1 = .allow)
      (notTooLarge : response.status ≠ 413) (notDenied : response.status ≠ 429)
      (counted : Counted (request.eventsOf response)
        { s with limiter := (admission clock (request.asker? s.maxRequestSize) s.limiter).2 } s') :
      Limited clock request s (.ok response, s')
  | aborted {s' : Site σ}
      (allow : (admission clock (request.asker? s.maxRequestSize) s.limiter).1 = .allow)
      (counted : Counted []
        { s with limiter := (admission clock (request.asker? s.maxRequestSize) s.limiter).2 } s') :
      Limited clock request s (.abort, s')

/-- A request that reaches its route does so with the token paid. -/
theorem Dispatched.limited {clock : Clock} {request : Request} {s : Site σ}
    {result : Outcome Empty Response × Site σ}
    (h : Dispatched request
      { s with limiter := (admission clock (request.asker? s.maxRequestSize) s.limiter).2 } result)
    (allow : (admission clock (request.asker? s.maxRequestSize) s.limiter).1 = .allow) :
    Limited clock request s result := by
  cases h with
  | answered notTooLarge notDenied counted =>
    exact .admitted allow notTooLarge notDenied counted
  | aborted counted => exact .aborted allow counted

theorem limited_ends [Backend σ] (clock : Clock) (random : Bytes) {request : Request}
    (hmethod : request.method ≠ .options) (s : Site σ) :
    Limited clock request s (limited clock random request s) := by
  cases hoversize : request.oversize? s.maxRequestSize with
  | some size =>
    rw [limited, limitSize_of_oversize hoversize]
    exact .tooLarge hoversize rfl _
  | none =>
    have hasker := asker?_of_within hmethod hoversize
    rw [limited, limitSize_of_within hoversize]
    cases hadmission : (admission clock request.peer s.limiter).1 with
    | deny =>
      cases hpeer : request.peer with
      | none =>
        rw [hpeer] at hadmission
        simp [admission] at hadmission
      | some peer =>
        rw [hpeer] at hadmission
        rw [limitRate_of_deny hpeer hadmission]
        exact .denied (hasker.trans hpeer) hadmission rfl _
    | allow =>
      rw [limitRate_of_allow hadmission, ← hasker]
      rw [← hasker] at hadmission
      exact (dispatched clock random request _).limited hadmission

theorem Limited.limiter {clock : Clock} {request : Request} {s : Site σ}
    {result : Outcome Empty Response × Site σ} (h : Limited clock request s result) :
    result.2.limiter = (admission clock (request.asker? s.maxRequestSize) s.limiter).2 := by
  cases h with
  | tooLarge oversize status event =>
    rw [asker?_of_oversize oversize]
    rfl
  | denied asker deny status event =>
    rw [asker, limiter_of_deny deny]
    rfl
  | admitted allow notTooLarge notDenied counted => exact counted.limiter
  | aborted allow counted => exact counted.limiter

theorem Limited.maxRequestSize {clock : Clock} {request : Request} {s : Site σ}
    {result : Outcome Empty Response × Site σ} (h : Limited clock request s result) :
    result.2.maxRequestSize = s.maxRequestSize := by
  cases h with
  | tooLarge | denied => rfl
  | admitted allow notTooLarge notDenied counted => exact counted.maxRequestSize
  | aborted allow counted => exact counted.maxRequestSize

/-- Inside of the error count a request is denied exactly if the limiter denies it. -/
theorem Limited.denied_iff {clock : Clock} {request : Request} {s : Site σ}
    {result : Outcome Empty Response × Site σ} (h : Limited clock request s result) :
    (∃ response, result.1 = .ok response ∧ response.status = 429) ↔
      (admission clock (request.asker? s.maxRequestSize) s.limiter).1 = .deny := by
  cases h with
  | tooLarge oversize status event => simp [asker?_of_oversize oversize, admission, status]
  | denied asker deny status event => simp [asker, deny, status]
  | admitted allow notTooLarge notDenied counted => simp [allow, notDenied]
  | aborted allow counted => simp [allow]

/-! ### Settling -/

/-- Counts a response that is an error. At a time that is no moment it cannot be counted, and there
is no answer. -/
def settle (clock : Clock) (response : Response) (s : Site σ) : Outcome Empty Response × Site σ :=
  if response.isError then
    match clock.moment? with
    | some moment => (.ok response, { s with stats := s.stats.record .httpError moment })
    | none => (.abort, s)
  else (.ok response, s)

theorem settle_of_ok {clock : Clock} {response : Response} (h : response.status < 400)
    (s : Site σ) : settle clock response s = (.ok response, s) := by
  have hok : response.isError = false := decide_eq_false (Nat.not_le.2 h)
  rw [settle, hok]
  rfl

theorem settle_of_error {clock : Clock} {response : Response} (h : 400 ≤ response.status)
    (s : Site σ) :
    settle clock response s =
      match clock.moment? with
      | some moment => (.ok response, { s with stats := s.stats.record .httpError moment })
      | none => (.abort, s) := by
  have herror : response.isError = true := decide_eq_true h
  rw [settle, herror]
  rfl

theorem response_of_settle {clock : Clock} {response answered : Response} {s : Site σ}
    (h : (settle clock response s).1 = .ok answered) : answered = response := by
  rw [settle] at h
  split at h
  · cases hmoment : clock.moment? with
    | none => simp [hmoment] at h
    | some moment =>
      rw [hmoment] at h
      exact (Outcome.ok.inj h).symm
  · exact (Outcome.ok.inj h).symm

/-- An error that is the answer has been counted. -/
theorem settle_eq_ok_of_error {clock : Clock} {response answered : Response} {s s' : Site σ}
    (herror : 400 ≤ answered.status) (h : settle clock response s = (.ok answered, s')) :
    answered = response ∧ ∃ moment, clock.moment? = some moment ∧
      s' = { s with stats := s.stats.record .httpError moment } := by
  obtain rfl := response_of_settle (congrArg Prod.fst h)
  rw [settle_of_error herror] at h
  cases hmoment : clock.moment? with
  | none => simp [hmoment] at h
  | some moment =>
    rw [hmoment] at h
    exact ⟨rfl, moment, rfl, (Prod.mk.inj h).2.symm⟩

/-- An error is the answer exactly if it can be counted. -/
theorem settle_error_iff {clock : Clock} {response : Response} {s : Site σ} {status : Nat}
    (hstatus : 400 ≤ status) :
    (∃ answered, (settle clock response s).1 = .ok answered ∧ answered.status = status) ↔
      response.status = status ∧ clock.moment?.isSome = true := by
  constructor
  · rintro ⟨answered, hanswer, rfl⟩
    obtain ⟨rfl, moment, hmoment, -⟩ := settle_eq_ok_of_error hstatus (Prod.ext hanswer rfl)
    exact ⟨rfl, Option.isSome_of_eq_some hmoment⟩
  · rintro ⟨rfl, hcounted⟩
    obtain ⟨moment, hmoment⟩ := Option.isSome_iff_exists.1 hcounted
    rw [settle_of_error hstatus, hmoment]
    exact ⟨response, rfl, rfl⟩

/-- Settling leaves whatever does not depend on the count of errors. -/
theorem settle_keeps {α : Type} (view : Site σ → α)
    (h : ∀ s moment, view { s with stats := s.stats.record .httpError moment } = view s)
    (clock : Clock) (response : Response) (s : Site σ) :
    view (settle clock response s).2 = view s := by
  unfold settle
  split
  · cases clock.moment? with
    | none => rfl
    | some moment => exact h s moment
  · rfl

theorem status_finish (request : Request) (response : Response) :
    (finish request response).status = response.status := by
  unfold finish
  simp only
  split <;> rfl

theorem countErrors_of_ok {clock : Clock} {inner : Answerer σ} {request : Request}
    {response : Response} {s s' : Site σ} (h : inner request s = (.ok response, s')) :
    countErrors clock inner request s = settle clock response s' := by
  unfold countErrors
  rw [bind_of_ok h, settle]
  split
  · cases hclock : clock.moment? with
    | none => exact bind_of_abort (Site.count_of_no_moment hclock _ s')
    | some moment => exact bind_of_ok (Site.count_of_moment hclock _ s')
  · rfl

theorem shareAcrossOrigins_of_not_options (inner : Answerer σ) {request : Request}
    (hmethod : request.method ≠ .options) :
    shareAcrossOrigins inner request =
      inner request >>= fun response => pure (response.withHeaders sharingHeaders) := by
  unfold shareAcrossOrigins
  cases hother : request.method with
  | options => exact absurd hother hmethod
  | get | head | other name => rfl

section Answer

variable [Backend σ] {clock : Clock} {random : Bytes} {request : Request} {response : Response}
  {s s' : Site σ}

/-- The error is counted before the response is finished, and finishing keeps the status. -/
theorem answer_of_shared
    (h : shareAcrossOrigins (limited clock random) request s = (.ok response, s')) :
    answer clock random request s = settle clock (finish request response) s' := by
  have hlayered : layered clock random request s = settle clock response s' := countErrors_of_ok h
  have hanswer : answer clock random request s =
      ((layered clock random request s).1.map (finish request),
        (layered clock random request s).2) := bind_pure_apply _ s
  rw [hanswer, hlayered, settle, settle, Response.isError, Response.isError, status_finish]
  split
  · cases clock.moment? <;> rfl
  · rfl

theorem answer_of_options (hmethod : request.method = .options) :
    ∃ response : Response, response.status = 200 ∧
      answer clock random request s = (.ok response, s) := by
  have hshared : shareAcrossOrigins (limited clock random) request s =
      (.ok ((Response.empty 200).withHeaders (preflightHeaders ++ sharingHeaders)), s) := by
    rw [shareAcrossOrigins, hmethod]
    rfl
  have hanswer := answer_of_shared hshared
  rw [settle_of_ok (by rw [status_finish]; decide)] at hanswer
  exact ⟨_, status_finish request _, hanswer⟩

theorem answer_eq_settle (hmethod : request.method ≠ .options)
    (h : limited clock random request s = (.ok response, s')) :
    answer clock random request s =
      settle clock (finish request (response.withHeaders sharingHeaders)) s' := by
  apply answer_of_shared
  rw [shareAcrossOrigins_of_not_options _ hmethod]
  exact bind_of_ok h

theorem answer_of_limited (hmethod : request.method ≠ .options)
    (h : limited clock random request s = (.ok response, s')) :
    ∃ dressed : Response, dressed.status = response.status ∧
      answer clock random request s = settle clock dressed s' :=
  ⟨finish request (response.withHeaders sharingHeaders), status_finish request _,
    answer_eq_settle hmethod h⟩

theorem answer_of_limited_abort (hmethod : request.method ≠ .options)
    (h : limited clock random request s = (.abort, s')) :
    answer clock random request s = (.abort, s') := by
  have hshared : shareAcrossOrigins (limited clock random) request s = (.abort, s') := by
    rw [shareAcrossOrigins_of_not_options _ hmethod]
    exact bind_of_abort h
  exact bind_of_abort (bind_of_abort hshared)

end Answer

/-! ### The ends of a request -/

/-- How a request is answered: as a preflight, or with a reply that is settled, or not at all. -/
inductive Answered (clock : Clock) (request : Request) (s : Site σ) :
    Outcome Empty Response × Site σ → Prop
  | preflight {response : Response} (method : request.method = .options)
      (status : response.status = 200) : Answered clock request s (.ok response, s)
  | settled {reply response : Response} {s' : Site σ}
      (limited : Limited clock request s (.ok reply, s'))
      (status : response.status = reply.status) :
      Answered clock request s (settle clock response s')
  | aborted {s' : Site σ} (limited : Limited clock request s (.abort, s')) :
      Answered clock request s (.abort, s')

theorem answered [Backend σ] (clock : Clock) (random : Bytes) (request : Request) (s : Site σ) :
    Answered clock request s (answer clock random request s) := by
  by_cases hmethod : request.method = .options
  · obtain ⟨response, hstatus, hanswer⟩ := @answer_of_options _ _ clock random _ s hmethod
    rw [hanswer]
    exact .preflight hmethod hstatus
  · have hends := limited_ends clock random hmethod s
    rcases hlimited : limited clock random request s with ⟨outcome, s'⟩
    rw [hlimited] at hends
    cases outcome with
    | ok reply =>
      obtain ⟨response, hstatus, hanswer⟩ := answer_of_limited hmethod hlimited
      rw [hanswer]
      exact .settled hends hstatus
    | error e => exact e.elim
    | abort =>
      rw [answer_of_limited_abort hmethod hlimited]
      exact .aborted hends

/-- A part of the response tells that there is one. -/
theorem exists_of_map {α : Type} {result : Outcome Empty Response × Site σ} {view : Response → α}
    {shown : α} (h : result.1.map view = .ok shown) :
    ∃ response s', result = (.ok response, s') ∧ view response = shown := by
  obtain ⟨outcome, s'⟩ := result
  cases outcome with
  | ok response => exact ⟨response, s', rfl, Outcome.ok.inj h⟩
  | error e => exact e.elim
  | abort => simp [Outcome.map] at h

theorem Answered.limiter {clock : Clock} {request : Request} {s : Site σ}
    {result : Outcome Empty Response × Site σ} (h : Answered clock request s result) :
    result.2.limiter = (admission clock (request.asker? s.maxRequestSize) s.limiter).2 := by
  cases h with
  | preflight method status => rw [asker?_of_options method, admission]
  | settled limited status =>
    exact (settle_keeps (·.limiter) (fun _ _ => rfl) ..).trans limited.limiter
  | aborted limited => exact limited.limiter

theorem Answered.maxRequestSize {clock : Clock} {request : Request} {s : Site σ}
    {result : Outcome Empty Response × Site σ} (h : Answered clock request s result) :
    result.2.maxRequestSize = s.maxRequestSize := by
  cases h with
  | preflight => rfl
  | settled limited status =>
    exact (settle_keeps (·.maxRequestSize) (fun _ _ => rfl) ..).trans limited.maxRequestSize
  | aborted limited => exact limited.maxRequestSize

/-- A request is denied exactly if the limiter denies it and its error can be counted. -/
theorem Answered.denied_iff {clock : Clock} {request : Request} {s : Site σ}
    {result : Outcome Empty Response × Site σ} (h : Answered clock request s result) :
    (∃ response, result.1 = .ok response ∧ response.status = 429) ↔
      (admission clock (request.asker? s.maxRequestSize) s.limiter).1 = .deny ∧
        clock.moment?.isSome = true := by
  cases h with
  | preflight method status => simp [asker?_of_options method, admission, status]
  | settled limited status =>
    rw [← limited.denied_iff, settle_error_iff (by decide), status]
    simp
  | aborted limited =>
    rw [← limited.denied_iff]
    simp

/-! ### Runs of a site -/

/-- What happens to a site: a request is sent, with the random bytes that it would be given, or
anything at all happens to the store. -/
inductive Occurrence (σ : Type) where
  | request (random : Bytes) (request : Request)
  | store (change : RecordStore σ → RecordStore σ)

/-- The request with its response, if it has one. -/
def exchangeOf (request : Request) (outcome : Outcome Empty Response) : List (Request × Response) :=
  match outcome with
  | .ok response => [(request, response)]
  | _ => []

def occur [Backend σ] (t : Timed (Occurrence σ)) (s : Site σ) :
    List (Request × Response) × Site σ :=
  match t.call with
  | .request random request =>
    (exchangeOf request (answer t.clock random request s).1,
      (answer t.clock random request s).2)
  | .store change => ([], { s with store := change s.store })

/-- The requests of a run that have a response, each with it. -/
def exchanges [Backend σ] (run : List (Timed (Occurrence σ))) (s : Site σ) :
    List (Request × Response) :=
  (transcript occur run s).flatMap Prod.snd

end DeadDrop.Http
