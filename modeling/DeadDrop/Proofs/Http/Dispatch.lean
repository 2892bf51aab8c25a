import DeadDrop.Http.Layer
import DeadDrop.Proofs.Service.Errors
import DeadDrop.Proofs.Stats.Counters

/-!
# What dispatching counts

A request that the layers let in ends on a route or on none. On a route it can be refused its
captures, it can fail in the service, it can find a field that does not decode, it can meet a time
that is no moment, or it can succeed, and an upload or a download is counted in the last case only.
Every route does its work on the store first and counts last, so `Serves` follows for each of them
from the same two steps.

The response is never one of the two that the layers give, since no error of the service is a
refusal of a client or of a size.
-/

namespace DeadDrop

open DeadDrop.Action

/-! ### Errors of the service -/

/-- The error is none of those by which a layer refuses a request. -/
def Error.OfService : Error → Prop
  | .rateLimited _ | .requestTooLarge _ _ => False
  | _ => True

theorem Error.OfRecord.ofService {e : Error} (h : e.OfRecord) : e.OfService := by
  cases e with
  | rateLimited | requestTooLarge => exact h
  | _ => trivial

theorem Error.OfWrite.ofService {uploadKey : Text} {e : Error} (h : e.OfWrite uploadKey) :
    e.OfService := by
  rcases h with h | h
  · exact h.ofService
  · obtain ⟨cause, _, rfl⟩ := Service.downloadKeyOf_eq_error_iff.1 h
    trivial

theorem Service.ofService_of_keyPairOf {random : Bytes} {e : Error}
    (h : keyPairOf random = .error e) : e.OfService := by
  unfold keyPairOf at h
  simp only at h
  split at h
  · obtain rfl := Except.error.inj h
    trivial
  · simp at h

namespace Http

variable {σ : Type}

/-- The status of a request that fails on its route, or that has no route. -/
def Refused (status : Nat) : Prop := 400 ≤ status ∧ status ≠ 413 ∧ status ≠ 429

instance (status : Nat) : Decidable (Refused status) := inferInstanceAs (Decidable (_ ∧ _))

theorem refused_service {e : Error} (h : e.OfService) : Refused (errorResponse e).status := by
  change Refused e.status
  cases e with
  | rateLimited client => exact h.elim
  | requestTooLarge size max => exact h.elim
  | _ => simp [Refused, Error.status]

/-! ### What is counted -/

theorem Site.count_of_moment {ε : Type} {clock : Clock} {moment : Moment}
    (h : clock.moment? = some moment) (event : StatsEvent) (s : Site σ) :
    (Site.count clock event : Action (Site σ) ε Unit) s =
      (.ok (), { s with stats := s.stats.record event moment }) := by
  simp only [Site.count, Site.onStats, h]

theorem Site.count_of_no_moment {ε : Type} {clock : Clock} (h : clock.moment? = none)
    (event : StatsEvent) (s : Site σ) :
    (Site.count clock event : Action (Site σ) ε Unit) s = (.abort, s) := by
  simp only [Site.count, Site.onStats, h]

/-- From one state to the other these events are counted. Besides the counts and the hours only the
store and the log may differ. -/
structure Counted (events : List StatsEvent) (s s' : Site σ) : Prop where
  limiter : s'.limiter = s.limiter
  maxRequestSize : s'.maxRequestSize = s.maxRequestSize
  rateLimitHits : s'.stats.rateLimitHits = s.stats.rateLimitHits
  rateLimitedClients : s'.stats.rateLimitedClients = s.stats.rateLimitedClients
  lifetime : s'.stats.lifetime = events.foldl .count s.stats.lifetime

theorem Counted.refl (s : Site σ) : Counted [] s s := ⟨rfl, rfl, rfl, rfl, rfl⟩

theorem Counted.trans {events more : List StatsEvent} {s s' s'' : Site σ}
    (h : Counted events s s') (h' : Counted more s' s'') : Counted (events ++ more) s s'' where
  limiter := h'.limiter.trans h.limiter
  maxRequestSize := h'.maxRequestSize.trans h.maxRequestSize
  rateLimitHits := h'.rateLimitHits.trans h.rateLimitHits
  rateLimitedClients := h'.rateLimitedClients.trans h.rateLimitedClients
  lifetime := by rw [h'.lifetime, h.lifetime, List.foldl_append]

/-- How a call on a route ends. The event is counted if it succeeds, and only then. -/
inductive Served (event? : Option StatsEvent) (s : Site σ) :
    Outcome Failure Response × Site σ → Prop
  | succeeded {response : Response} {s' : Site σ} (status : response.status = 200)
      (counted : Counted event?.toList s s') : Served event? s (.ok response, s')
  | failed {failure : Failure} {s' : Site σ} (status : Refused failure.response.status)
      (counted : Counted [] s s') : Served event? s (.error failure, s')
  | aborted {s' : Site σ} (counted : Counted [] s s') : Served event? s (.abort, s')

def Serves (event? : Option StatsEvent) (call : Action (Site σ) Failure Response) : Prop :=
  ∀ s, Served event? s (call s)

/-! ### Calls on a route -/

section Serves

variable {event? : Option StatsEvent}

theorem serves_pure {response : Response} (status : response.status = 200) :
    Serves none (pure response : Action (Site σ) Failure Response) :=
  fun s => .succeeded status (.refl s)

theorem serves_fail {failure : Failure} (status : Refused failure.response.status) :
    Serves event? (fail failure : Action (Site σ) Failure Response) :=
  fun s => .failed status (.refl s)

/-- What was done before without counting does not matter. -/
theorem Served.after {s s' : Site σ} {result : Outcome Failure Response × Site σ}
    (hbefore : Counted [] s s') (h : Served event? s' result) : Served event? s result := by
  cases h with
  | succeeded status counted => exact .succeeded status (hbefore.trans counted)
  | failed status counted => exact .failed status (hbefore.trans counted)
  | aborted counted => exact .aborted (hbefore.trans counted)

/-- Work on the store counts nothing, and ends the call if it fails. -/
theorem serves_onStore_bind {α : Type} {action : Action (RecordStore σ) Error α}
    (hfails : FailsOnly Error.OfService action) {next : α → Action (Site σ) Failure Response}
    (hnext : ∀ value, Serves event? (next value)) :
    Serves event? (Site.onStore action >>= next) := by
  intro s
  have hkept : Counted [] s { s with store := (action s.store).2 } := ⟨rfl, rfl, rfl, rfl, rfl⟩
  have hstore : Site.onStore action s =
      ((action s.store).1.mapError .service, { s with store := (action s.store).2 }) := rfl
  cases houtcome : (action s.store).1 with
  | ok value =>
    rw [houtcome, Outcome.mapError_ok] at hstore
    rw [bind_of_ok hstore]
    exact (hnext value _).after hkept
  | error e =>
    rw [houtcome, Outcome.mapError_error] at hstore
    rw [bind_of_error hstore]
    exact .failed (refused_service (hfails _ e houtcome)) hkept
  | abort =>
    rw [houtcome, Outcome.mapError_abort] at hstore
    rw [bind_of_abort hstore]
    exact .aborted hkept

/-- The event is counted last, when nothing can fail any more. -/
theorem serves_count_bind (clock : Clock) (event : StatsEvent) {response : Response}
    (status : response.status = 200) :
    Serves (some event) (Site.count clock event >>= fun _ =>
      (pure response : Action (Site σ) Failure Response)) := by
  intro s
  cases hclock : clock.moment? with
  | none =>
    rw [bind_of_abort (Site.count_of_no_moment hclock event s)]
    exact .aborted (.refl s)
  | some moment =>
    rw [bind_of_ok (Site.count_of_moment hclock event s)]
    exact .succeeded status ⟨rfl, rfl, rfl, rfl, rfl⟩

end Serves

/-! ### Routes -/

/-- What a success on a route is counted as. -/
def Route.event? : Route → Option StatsEvent
  | .upload _ | .patch _ _ => some .upload
  | .downloadJson _ | .downloadPlain _ _ | .downloadDecoded _ _ => some .download
  | .keyPair | .health | .stats | .delete _ => none

theorem exists_of_bind_eq_ok {α β : Type} {first : Except Text α} {next : α → Except Text β}
    {result : β} (h : (first >>= next) = .ok result) : ∃ value, next value = .ok result := by
  cases first with
  | error name => exact absurd h (by simp [bind, Except.bind])
  | ok value => exact ⟨value, h⟩

/-- Decoding its captures does not change what a route is. -/
theorem Route.event?_decode {route decoded : Route} (h : route.decode = .ok decoded) :
    decoded.event? = route.event? := by
  cases route with
  | keyPair | health | stats => rw [← Except.ok.inj h]
  | upload key | downloadJson key | delete key =>
    obtain ⟨key', h⟩ := exists_of_bind_eq_ok h
    rw [← Except.ok.inj h]
    rfl
  | patch key rest | downloadPlain key rest | downloadDecoded key rest =>
    obtain ⟨key', h⟩ := exists_of_bind_eq_ok h
    obtain ⟨rest', h⟩ := exists_of_bind_eq_ok h
    rw [← Except.ok.inj h]
    rfl

theorem serves_showStats (clock : Clock) :
    Serves none (showStats clock : Action (Site σ) Failure Response) := by
  intro s
  unfold showStats Site.onStats
  cases clock.moment? with
  | none => exact .aborted (.refl s)
  | some moment => exact .succeeded rfl ⟨rfl, rfl, rfl, rfl, rfl⟩

theorem serves_onRoute [Backend σ] (clock : Clock) (random : Bytes) (request : Request)
    (route : Route) :
    Serves route.event?
      (onRoute clock random request route : Action (Site σ) Failure Response) := by
  cases route with
  | keyPair =>
    change Serves none (issueKeyPair random)
    unfold issueKeyPair
    split
    · exact serves_pure rfl
    · rename_i e he
      exact serves_fail (refused_service (Service.ofService_of_keyPairOf he))
  | health => exact serves_pure rfl
  | stats => exact serves_showStats clock
  | upload key =>
    refine serves_onStore_bind ((Service.failsOnly_upload clock key _).mono fun _ =>
      Error.OfWrite.ofService) fun written => ?_
    exact serves_count_bind clock .upload rfl
  | patch key path =>
    refine serves_onStore_bind ((Service.failsOnly_patch clock key path _).mono fun _ =>
      Error.OfWrite.ofService) fun written => ?_
    exact serves_count_bind clock .upload rfl
  | downloadJson key =>
    refine serves_onStore_bind ((RecordStore.failsOnly_getBytes clock _).mono fun _ =>
      Error.OfRecord.ofService) fun bytes => ?_
    exact serves_count_bind clock .download rfl
  | downloadPlain key field =>
    refine serves_onStore_bind ((Service.failsOnly_downloadField clock key field).mono fun _ =>
      Error.OfRecord.ofService) fun value => ?_
    exact serves_count_bind clock .download rfl
  | downloadDecoded key field =>
    refine serves_onStore_bind ((Service.failsOnly_downloadField clock key field).mono fun _ =>
      Error.OfRecord.ofService) fun value => ?_
    cases decodedText? value with
    | none => exact serves_fail (by decide)
    | some text => exact serves_count_bind clock .download rfl
  | delete key =>
    refine serves_onStore_bind ((Service.failsOnly_delete clock key).mono fun _ =>
      Error.OfWrite.ofService) fun _ => ?_
    exact serves_pure rfl

/-- What a request that is let in can be counted as: an upload or a download, if it asks for one. -/
def Request.event? (request : Request) : Option StatsEvent :=
  if request.isRead then (Route.ofPath? request.uri.path).bind Route.event? else none

def Request.eventsOf (request : Request) (response : Response) : List StatsEvent :=
  if response.status = 200 then request.event?.toList else []

/-- How the dispatch of a request ends: with a response that no layer gives, and a success is
counted. -/
inductive Dispatched (request : Request) (s : Site σ) : Outcome Empty Response × Site σ → Prop
  | answered {response : Response} {s' : Site σ} (notTooLarge : response.status ≠ 413)
      (notDenied : response.status ≠ 429)
      (counted : Counted (request.eventsOf response) s s') : Dispatched request s (.ok response, s')
  | aborted {s' : Site σ} (counted : Counted [] s s') : Dispatched request s (.abort, s')

theorem Refused.eventsOf {response : Response} (h : Refused response.status) (request : Request) :
    request.eventsOf response = [] := by
  have hstatus : response.status ≠ 200 := by
    have := h.1
    omega
  rw [Request.eventsOf, if_neg hstatus]

theorem Served.dispatched {request : Request} {s : Site σ}
    {call : Action (Site σ) Failure Response} (h : Served request.event? s (call s)) :
    Dispatched request s (Site.answering call s) := by
  unfold Site.answering
  generalize call s = result at h
  cases h with
  | @succeeded response s' status counted =>
    refine .answered (by omega) (by omega) ?_
    rwa [Request.eventsOf, if_pos status]
  | @failed failure s' status counted =>
    refine .answered status.2.1 status.2.2 ?_
    rw [status.eventsOf]
    exact ⟨counted.limiter, counted.maxRequestSize, counted.rateLimitHits,
      counted.rateLimitedClients, counted.lifetime⟩
  | aborted counted => exact .aborted counted

theorem dispatched_of_refused {request : Request} {response : Response}
    (status : Refused response.status) (s : Site σ) :
    Dispatched request s ((pure response : Action (Site σ) Empty Response) s) := by
  refine .answered status.2.1 status.2.2 ?_
  rw [status.eventsOf]
  exact .refl s

/-- Whatever a request asks for, dispatching it counts a success as what it is, and nothing else. -/
theorem dispatched [Backend σ] (clock : Clock) (random : Bytes) (request : Request)
    (s : Site σ) : Dispatched request s (dispatch clock random request s) := by
  unfold dispatch
  cases hroute : Route.ofPath? request.uri.path with
  | none => exact dispatched_of_refused (by decide) s
  | some route =>
    by_cases hread : request.isRead = true
    · have hevent : request.event? = route.event? := by
        rw [Request.event?, if_pos hread, hroute, Option.bind_some]
      simp only [hread, if_true]
      apply Served.dispatched
      rw [hevent]
      unfold onCaptured
      cases hdecode : route.decode with
      | error name => exact serves_fail (by change Refused 400; decide) s
      | ok decoded =>
        rw [← Route.event?_decode hdecode]
        exact serves_onRoute clock random request decoded s
    · simp only [hread]
      exact dispatched_of_refused (by decide) s

end Http

end DeadDrop
