import DeadDrop.Proofs.Http.Layers
import DeadDrop.Proofs.Net.Address
import DeadDrop.Proofs.Stats.Window
import DeadDrop.Store.Memory

/-!
# The counters account for the responses

Of a run of a site only the responses are seen from outside, and the lifetime counters can be told
from them: a response of status 400 or more is an error, and a success on a route that writes or
reads records is an upload or a download. Every request is counted as its one response says, so the
counters are what the exchanges of the run add up to (`lifetime_stateAfter`).

Denials are different in one place. They are recorded when the limiter denies, and the error that
they are is counted later. At a time that is no moment the error cannot be counted and there is no
response, yet the hit has been recorded, so of denials the same is said of runs whose clock always
shows a moment.
-/

namespace DeadDrop.Http

open Stats (countHit tally)

variable {σ : Type}

/-! ### One request -/

/-- What an exchange is counted as. -/
def eventsOf (exchange : Request × Response) : List StatsEvent :=
  exchange.1.eventsOf exchange.2 ++ if 400 ≤ exchange.2.status then [.httpError] else []

/-- The client that an exchange has denied. -/
def deniedClient? (exchange : Request × Response) : Option Text :=
  if exchange.2.status = 429 then exchange.1.peer.map fun peer => peer.ip.toText else none

theorem eventsOf_of_ok {request : Request} {response : Response} (h : response.status < 400) :
    eventsOf (request, response) = request.eventsOf response := by
  rw [eventsOf, if_neg (Nat.not_le.2 h), List.append_nil]

theorem eventsOf_of_error {request : Request} {response : Response} (h : 400 ≤ response.status) :
    request.eventsOf response = [] ∧ eventsOf (request, response) = [.httpError] := by
  have hnone : request.eventsOf response = [] := if_neg (by omega)
  rw [eventsOf, hnone, if_pos h]
  exact ⟨rfl, rfl⟩

/-- A response that is settled counts as what it is, if a success has been counted before. -/
theorem lifetime_settle (clock : Clock) {request : Request} {response : Response} {s s' : Site σ}
    (h : s'.stats.lifetime = (request.eventsOf response).foldl .count s.stats.lifetime) :
    (settle clock response s').2.stats.lifetime =
      ((exchangeOf request (settle clock response s').1).flatMap eventsOf).foldl .count
        s.stats.lifetime := by
  rcases Nat.lt_or_ge response.status 400 with hok | herror
  · rw [settle_of_ok hok, exchangeOf, List.flatMap_singleton, eventsOf_of_ok hok]
    exact h
  · obtain ⟨hnone, hevents⟩ := @eventsOf_of_error request response herror
    rw [hnone] at h
    rw [settle_of_error herror]
    cases clock.moment? with
    | none => exact h
    | some moment =>
      simp only [exchangeOf, List.flatMap_singleton, hevents, List.foldl_cons, List.foldl_nil]
      rw [Stats.lifetime_record, h]
      rfl

theorem Limited.lifetime {clock : Clock} {request : Request} {reply : Response} {s s' : Site σ}
    (h : Limited clock request s (.ok reply, s')) :
    s'.stats.lifetime = (request.eventsOf reply).foldl .count s.stats.lifetime := by
  cases h with
  | tooLarge oversize status event =>
    rw [(eventsOf_of_error (by omega)).1]
    rfl
  | denied asker deny status event =>
    rw [(eventsOf_of_error (by omega)).1]
    rfl
  | admitted allow notTooLarge notDenied counted => exact counted.lifetime

theorem Answered.lifetime {clock : Clock} {request : Request} {s : Site σ}
    {result : Outcome Empty Response × Site σ} (h : Answered clock request s result) :
    result.2.stats.lifetime =
      ((exchangeOf request result.1).flatMap eventsOf).foldl .count s.stats.lifetime := by
  cases h with
  | @preflight response method status =>
    have hunread : request.isRead = false := by
      rw [Request.isRead, method]
      rfl
    have hnone : request.eventsOf response = [] := by
      rw [Request.eventsOf, Request.event?, hunread]
      split <;> rfl
    rw [exchangeOf, List.flatMap_singleton, eventsOf_of_ok (by omega), hnone]
    rfl
  | settled limited status =>
    apply lifetime_settle
    rw [limited.lifetime, Request.eventsOf, Request.eventsOf, status]
  | aborted limited =>
    cases limited with
    | aborted allow counted => exact counted.lifetime

/-- Denials are recorded as the exchanges say. -/
structure Recorded (exchanges : List (Request × Response)) (before after : Stats) : Prop where
  hits : after.rateLimitHits =
    before.rateLimitHits + exchanges.countP fun e => decide (e.2.status = 429)
  clients : after.rateLimitedClients =
    (exchanges.filterMap deniedClient?).foldl (fun lines client => countHit client lines)
      before.rateLimitedClients

theorem Recorded.refl (stats : Stats) : Recorded [] stats stats := ⟨rfl, rfl⟩

theorem Recorded.trans {exchanges more : List (Request × Response)} {a b c : Stats}
    (h : Recorded exchanges a b) (h' : Recorded more b c) : Recorded (exchanges ++ more) a c where
  hits := by rw [h'.hits, h.hits, List.countP_append, Nat.add_assoc]
  clients := by rw [h'.clients, h.clients, List.filterMap_append, List.foldl_append]

theorem recorded_of_not_denied {request : Request} {response : Response} {before after : Stats}
    (status : response.status ≠ 429) (hits : after.rateLimitHits = before.rateLimitHits)
    (clients : after.rateLimitedClients = before.rateLimitedClients) :
    Recorded [(request, response)] before after where
  hits := by simpa [status] using hits
  clients := by simpa [deniedClient?, status] using clients

theorem recorded_of_denied {request : Request} {response : Response} {peer : SocketAddress}
    (status : response.status = 429) (hpeer : request.peer = some peer) (stats : Stats) :
    Recorded [(request, response)] stats (stats.recordRateLimitHit peer.ip.toText) where
  hits := by simp [status, Stats.recordRateLimitHit]
  clients := by simp [deniedClient?, status, hpeer, Stats.recordRateLimitHit]

theorem settle_of_moment {clock : Clock} (h : clock.moment?.isSome = true) (response : Response)
    (s : Site σ) : (settle clock response s).1 = .ok response := by
  obtain ⟨moment, hmoment⟩ := Option.isSome_iff_exists.1 h
  rw [settle, hmoment]
  split <;> rfl

theorem peer_of_asker {request : Request} {max : Nat} {peer : SocketAddress}
    (h : request.asker? max = some peer) : request.peer = some peer := by
  unfold Request.asker? at h
  split at h
  · simp at h
  · split at h
    · simp at h
    · exact h

theorem Limited.recorded {clock : Clock} {request : Request} {reply response : Response}
    {s s' : Site σ} (h : Limited clock request s (.ok reply, s'))
    (hstatus : response.status = reply.status) :
    Recorded [(request, response)] s.stats s'.stats := by
  cases h with
  | tooLarge oversize status event => exact recorded_of_not_denied (by omega) rfl rfl
  | denied asker deny status event =>
    exact recorded_of_denied (hstatus.trans status) (peer_of_asker asker) s.stats
  | admitted allow notTooLarge notDenied counted =>
    exact recorded_of_not_denied (hstatus ▸ notDenied) counted.rateLimitHits
      counted.rateLimitedClients

theorem Answered.recorded {clock : Clock} {request : Request} {s : Site σ}
    {result : Outcome Empty Response × Site σ} (h : Answered clock request s result)
    (hclock : clock.moment?.isSome = true) :
    Recorded (exchangeOf request result.1) s.stats result.2.stats := by
  cases h with
  | preflight method status => exact recorded_of_not_denied (by omega) rfl rfl
  | @settled reply response s' limited status =>
    have hrecorded := limited.recorded status
    have hhits := settle_keeps (·.stats.rateLimitHits) (fun _ _ => rfl) clock response s'
    have hclients := settle_keeps (·.stats.rateLimitedClients) (fun _ _ => rfl) clock response s'
    rw [settle_of_moment hclock]
    exact ⟨hhits.trans hrecorded.hits, hclients.trans hrecorded.clients⟩
  | aborted limited =>
    cases limited with
    | aborted allow counted => exact ⟨counted.rateLimitHits, counted.rateLimitedClients⟩

/-! ### A run -/

section Run

variable [Backend σ]

theorem lifetime_occur (t : Timed (Occurrence σ)) (s : Site σ) :
    (occur t s).2.stats.lifetime =
      ((occur t s).1.flatMap eventsOf).foldl .count s.stats.lifetime := by
  unfold occur
  cases t.call with
  | request random request => exact (answered t.clock random request s).lifetime
  | store change => rfl

theorem recorded_occur {t : Timed (Occurrence σ)} (hclock : t.clock.moment?.isSome = true)
    (s : Site σ) : Recorded (occur t s).1 s.stats (occur t s).2.stats := by
  unfold occur
  cases t.call with
  | request random request => exact (answered t.clock random request s).recorded hclock
  | store change => exact .refl s.stats

theorem exchanges_cons (t : Timed (Occurrence σ)) (rest : List (Timed (Occurrence σ)))
    (s : Site σ) :
    exchanges (t :: rest) s = (occur t s).1 ++ exchanges rest (occur t s).2 := rfl

theorem lifetime_stateAfter (run : List (Timed (Occurrence σ))) (s : Site σ) :
    (stateAfter occur run s).stats.lifetime =
      ((exchanges run s).flatMap eventsOf).foldl .count s.stats.lifetime := by
  induction run generalizing s with
  | nil => rfl
  | cons t rest ih =>
    rw [exchanges_cons, List.flatMap_append, List.foldl_append, ← lifetime_occur]
    exact ih _

theorem recorded_stateAfter {run : List (Timed (Occurrence σ))}
    (hclocks : ∀ t ∈ run, t.clock.moment?.isSome = true) (s : Site σ) :
    Recorded (exchanges run s) s.stats (stateAfter occur run s).stats := by
  induction run generalizing s with
  | nil => exact .refl s.stats
  | cons t rest ih =>
    rw [exchanges_cons]
    have hfirst := recorded_occur (hclocks t List.mem_cons_self) s
    exact hfirst.trans (ih (fun i hi => hclocks i (List.mem_cons_of_mem t hi)) _)

end Run

/-! ### The sums -/

theorem count_flatMap_eq_countP {α : Type} {f : α → List StatsEvent} {event : StatsEvent}
    {p : α → Bool} (h : ∀ a, (f a).count event = if p a then 1 else 0) (l : List α) :
    (l.flatMap f).count event = l.countP p := by
  induction l with
  | nil => rfl
  | cons a rest ih =>
    rw [List.flatMap_cons, List.count_append, ih, h, List.countP_cons, Nat.add_comm]

theorem Request.event?_ne_httpError (request : Request) : request.event? ≠ some .httpError := by
  unfold Request.event?
  split
  · intro h
    obtain ⟨route, _, hroute⟩ := Option.bind_eq_some_iff.1 h
    cases route <;> simp [Route.event?] at hroute
  · simp

theorem count_eventsOf_httpError (exchange : Request × Response) :
    (eventsOf exchange).count .httpError = if decide (400 ≤ exchange.2.status) then 1 else 0 := by
  obtain ⟨request, response⟩ := exchange
  by_cases herror : 400 ≤ response.status
  · rw [(eventsOf_of_error herror).2, if_pos (decide_eq_true herror)]
    rfl
  · rw [eventsOf_of_ok (Nat.lt_of_not_le herror), if_neg (by simpa using herror)]
    -- a success is counted as an upload or a download, not as an error
    apply List.count_eq_zero_of_not_mem
    intro hmem
    rw [Request.eventsOf] at hmem
    split at hmem
    · exact request.event?_ne_httpError (Option.mem_toList.1 hmem)
    · simp at hmem

theorem count_eventsOf_of_ne {event : StatsEvent} (h : event ≠ .httpError)
    (exchange : Request × Response) :
    (eventsOf exchange).count event =
      if decide (exchange.2.status = 200 ∧ exchange.1.event? = some event) then 1 else 0 := by
  obtain ⟨request, response⟩ := exchange
  by_cases herror : 400 ≤ response.status
  · have hfails : ¬ response.status = 200 := by omega
    rw [(eventsOf_of_error herror).2]
    simp [hfails, h.symm]
  · rw [eventsOf_of_ok (Nat.lt_of_not_le herror), Request.eventsOf]
    by_cases hok : response.status = 200
    · cases hevent : request.event? with
      | none => simp [hok]
      | some other =>
        by_cases hsame : other = event
        · simp [hok, hsame]
        · simp [hok, hsame]
    · simp [hok]

/-- The lifetime counters are the numbers of the responses. -/
structure AccountsFor (exchanges : List (Request × Response)) (stats : Stats) : Prop where
  httpErrors : stats.lifetime.httpErrors = exchanges.countP fun e => decide (400 ≤ e.2.status)
  uploads : stats.lifetime.uploads =
    exchanges.countP fun e => decide (e.2.status = 200 ∧ e.1.event? = some .upload)
  downloads : stats.lifetime.downloads =
    exchanges.countP fun e => decide (e.2.status = 200 ∧ e.1.event? = some .download)

/-- A client that was denied has one line, with the number of its denials, and no other client has a
line. -/
structure AccountsForDenials (exchanges : List (Request × Response)) (stats : Stats) : Prop where
  hits : stats.rateLimitHits = exchanges.countP fun e => decide (e.2.status = 429)
  once : (stats.rateLimitedClients.map Prod.fst).Nodup
  lines : ∀ client hits, (client, hits) ∈ stats.rateLimitedClients ↔
    ∃ ip : IPAddress, client = ip.toText ∧ 0 < hits ∧
      hits = exchanges.countP fun e => decide (e.2.status = 429 ∧ e.1.peer.map (·.ip) = some ip)

theorem accountsFor_of_lifetime {exchanges : List (Request × Response)} {stats : Stats}
    (h : stats.lifetime = (exchanges.flatMap eventsOf).foldl .count .zero) :
    AccountsFor exchanges stats := by
  have hof : ∀ event, stats.lifetime.of event = (exchanges.flatMap eventsOf).count event := by
    intro event
    rw [h, EventCounts.of_foldl_count, EventCounts.of_zero, Nat.zero_add]
  constructor
  · exact (hof .httpError).trans (count_flatMap_eq_countP count_eventsOf_httpError exchanges)
  · exact (hof .upload).trans
      (count_flatMap_eq_countP (count_eventsOf_of_ne (by simp)) exchanges)
  · exact (hof .download).trans
      (count_flatMap_eq_countP (count_eventsOf_of_ne (by simp)) exchanges)

theorem count_filterMap_deniedClient? (ip : IPAddress) (exchanges : List (Request × Response)) :
    (exchanges.filterMap deniedClient?).count ip.toText =
      exchanges.countP fun e => decide (e.2.status = 429 ∧ e.1.peer.map (·.ip) = some ip) := by
  induction exchanges with
  | nil => rfl
  | cons exchange rest ih =>
    obtain ⟨request, response⟩ := exchange
    rw [List.filterMap_cons, List.countP_cons, ← ih, deniedClient?]
    by_cases hdenied : response.status = 429
    · cases hpeer : request.peer with
      | none => simp [hdenied]
      | some peer =>
        have hsame : peer.ip.toText = ip.toText ↔ peer.ip = ip := IPAddress.toText_injective.eq_iff
        simp [hdenied, List.count_cons, hsame]
    · simp [hdenied]

theorem Recorded.accountsForDenials {exchanges : List (Request × Response)} {before after : Stats}
    (h : Recorded exchanges before after) (hhits : before.rateLimitHits = 0)
    (hclients : before.rateLimitedClients = []) : AccountsForDenials exchanges after := by
  have hlines : after.rateLimitedClients = tally (exchanges.filterMap deniedClient?) := by
    rw [h.clients, hclients, tally]
  refine ⟨by rw [h.hits, hhits, Nat.zero_add], ?_, ?_⟩
  · rw [hlines]
    exact Stats.nodup_tally _
  · intro client hits
    rw [hlines, Stats.mem_tally_iff]
    constructor
    · rintro ⟨hmem, rfl⟩
      -- whoever was denied has an address
      obtain ⟨exchange, _, hdenied⟩ := List.mem_filterMap.1 hmem
      have hpeer : ∃ peer : SocketAddress, client = peer.ip.toText := by
        unfold deniedClient? at hdenied
        split at hdenied
        · obtain ⟨peer, _, hclient⟩ := Option.map_eq_some_iff.1 hdenied
          exact ⟨peer, hclient.symm⟩
        · simp at hdenied
      obtain ⟨peer, rfl⟩ := hpeer
      exact ⟨peer.ip, rfl, List.count_pos_iff.2 hmem, count_filterMap_deniedClient? ..⟩
    · rintro ⟨ip, rfl, hpos, hcount⟩
      rw [← count_filterMap_deniedClient?] at hcount
      exact ⟨List.count_pos_iff.1 (hcount ▸ hpos), hcount⟩

/-- **The counters account for the responses.** After any run of a site that was started afresh, the
lifetime counters are what the responses add up to, and so are the denials, if the clock has always
shown a moment. -/
theorem counters_account_for_responses [Backend σ] (store : RecordStore σ) (limiter : Limiter)
    (maxRequestSize : Nat) (moment : Moment) (run : List (Timed (Occurrence σ))) :
    AccountsFor (exchanges run (.started store limiter maxRequestSize moment))
        (stateAfter occur run (.started store limiter maxRequestSize moment)).stats ∧
      ((∀ t ∈ run, 0 ≤ t.clock.wall ∧ t.clock.wall < Clock.calendarEnd) →
        AccountsForDenials (exchanges run (.started store limiter maxRequestSize moment))
          (stateAfter occur run (.started store limiter maxRequestSize moment)).stats) := by
  constructor
  · exact accountsFor_of_lifetime (lifetime_stateAfter run _)
  · intro hclocks
    have hmoments : ∀ t ∈ run, t.clock.moment?.isSome = true := fun t ht =>
      Stats.isSome_moment? (hclocks t ht).1 (hclocks t ht).2
    exact (recorded_stateAfter hmoments _).accountsForDenials rfl rfl

/-! ### Samples -/

def healthCheck : Request where
  method := .get
  uri := ⟨"/health".toList, none⟩
  headers := []
  peer := some ⟨Limiter.samplePeer, 50000, 0⟩

/-- A site without records, where a client has two tokens. -/
def sampleSite : Site Memory :=
  .started ⟨⟨Table.empty⟩, 60000000000⟩ Limiter.sampleLimiter 10240 ⟨1700000000, 0⟩

/-- Checks by one client, all at one time of the monotonic clock. -/
def healthChecks (walls : List Int) : List (Timed (Occurrence Memory)) :=
  walls.map fun wall => ⟨⟨wall, 0⟩, .request [] healthCheck⟩

def sampleWall : Int := 1700000000 * 1000000000

theorem counters_account_for_responses_sample :
    let run := healthChecks [sampleWall, sampleWall, sampleWall]
    (∀ t ∈ run, 0 ≤ t.clock.wall ∧ t.clock.wall < Clock.calendarEnd) ∧
      AccountsFor (exchanges run sampleSite) (stateAfter occur run sampleSite).stats ∧
      AccountsForDenials (exchanges run sampleSite) (stateAfter occur run sampleSite).stats := by
  intro run
  have hclocks : ∀ t ∈ run, 0 ≤ t.clock.wall ∧ t.clock.wall < Clock.calendarEnd := by decide
  obtain ⟨haccounts, hdenials⟩ := counters_account_for_responses ⟨⟨Table.empty⟩, 60000000000⟩
    Limiter.sampleLimiter 10240 ⟨1700000000, 0⟩ run
  exact ⟨hclocks, haccounts, hdenials hclocks⟩

example : (exchanges (healthChecks [sampleWall, sampleWall, sampleWall]) sampleSite).map
    (fun e => e.2.status) = [200, 200, 429] := by
  decide +kernel

/-- A denial where the calendar has ended is recorded and has no response. -/
theorem not_accounts_for_denials_past_calendar :
    let run := healthChecks [sampleWall, sampleWall, Clock.calendarEnd]
    (∀ t ∈ run, 0 ≤ t.clock.wall) ∧
      ¬ AccountsForDenials (exchanges run sampleSite) (stateAfter occur run sampleSite).stats := by
  intro run
  refine ⟨by decide, fun haccounts => ?_⟩
  have hhits : (stateAfter occur run sampleSite).stats.rateLimitHits = 1 := by decide +kernel
  have hanswered : (exchanges run sampleSite).countP (fun e => decide (e.2.status = 429)) = 0 := by
    decide +kernel
  have hsame := haccounts.hits
  rw [hhits, hanswered] at hsame
  exact absurd hsame (by decide)

end DeadDrop.Http
