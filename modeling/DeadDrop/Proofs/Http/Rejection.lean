import DeadDrop.Proofs.Http.Accounting
import DeadDrop.Proofs.Limiter.TokenBucket

/-!
# Requests that are rejected

A request that declares too much is rejected before the limiter is asked, and a client that is
denied keeps its bucket, so neither costs a token. Both leave the site as it was, except that an
error is counted and logged, and that a denial adds to the hits of its client.

Hence the limiter of a site has been asked exactly about the requests that got as far as it. For one
address these are the requests of its peers, preflights and those that declare too much apart, and
on them its token bucket decides, whatever other clients have done and however the requests ended.
-/

namespace DeadDrop.Http

open Limiter (TokenBucket decideOn)

variable {σ : Type}

/-! ### What a rejection leaves -/

/-- An error is counted at a moment of the clock and an event is logged. Besides the hits of denied
clients nothing else has changed. -/
structure OnlyErrorCounted (clock : Clock) (s s' : Site σ) : Prop where
  store : s'.store = s.store
  limiter : s'.limiter = s.limiter
  maxRequestSize : s'.maxRequestSize = s.maxRequestSize
  startTime : s'.stats.startTime = s.stats.startTime
  lifetime : s'.stats.lifetime = s.stats.lifetime.count .httpError
  hourly : ∃ moment, clock.moment? = some moment ∧ ∀ hour,
    s'.stats.hourly.get? hour =
      if hour = Stats.hourOf moment then
        some (((s.stats.hourly.get? hour).getD .zero).count .httpError)
      else s.stats.hourly.get? hour
  log : ∃ event, s'.log = s.log ++ [event]

/-- An error that has a response was counted at a moment, in the state in which it was given. -/
theorem Answered.of_error {clock : Clock} {request : Request} {s s' : Site σ} {response : Response}
    (h : Answered clock request s (.ok response, s')) (herror : 400 ≤ response.status) :
    ∃ reply s₁ moment, Limited clock request s (.ok reply, s₁) ∧ response.status = reply.status ∧
      clock.moment? = some moment ∧ s' = { s₁ with stats := s₁.stats.record .httpError moment } := by
  generalize hresult : ((.ok response, s') : Outcome Empty Response × Site σ) = result at h
  cases h with
  | preflight method status =>
    obtain rfl := Outcome.ok.inj (Prod.mk.inj hresult).1
    omega
  | @settled reply settled s₁ limited status =>
    obtain ⟨rfl, moment, hmoment, hstate⟩ := settle_eq_ok_of_error herror hresult.symm
    exact ⟨reply, s₁, moment, limited, status, hmoment, hstate⟩
  | aborted limited => simp at hresult

theorem onlyErrorCounted_record {clock : Clock} {moment : Moment}
    (hmoment : clock.moment? = some moment) (s : Site σ) (event : LogEvent) {stats : Stats}
    (hstart : stats.startTime = s.stats.startTime) (hlifetime : stats.lifetime = s.stats.lifetime)
    (hhourly : stats.hourly = s.stats.hourly) :
    OnlyErrorCounted clock s
      { s with stats := stats.record .httpError moment, log := s.log ++ [event] } where
  store := rfl
  limiter := rfl
  maxRequestSize := rfl
  startTime := hstart
  lifetime := by rw [Stats.lifetime_record, hlifetime]
  hourly := by
    refine ⟨moment, hmoment, fun hour => ?_⟩
    rw [Stats.get?_hourly_record, hhourly]
    by_cases hhour : hour = Stats.hourOf moment
    · rw [if_pos hhour, if_pos hhour, hhour]
    · rw [if_neg hhour, if_neg hhour]
  log := ⟨event, rfl⟩

theorem Answered.tooLarge_leaves {clock : Clock} {request : Request} {s s' : Site σ}
    {response : Response} (h : Answered clock request s (.ok response, s'))
    (hstatus : response.status = 413) :
    OnlyErrorCounted clock s s' ∧ s'.stats.rateLimitHits = s.stats.rateLimitHits ∧
      s'.stats.rateLimitedClients = s.stats.rateLimitedClients := by
  obtain ⟨reply, s₁, moment, limited, status, hmoment, rfl⟩ := h.of_error (by omega)
  rw [status] at hstatus
  cases limited with
  | tooLarge oversize _ event =>
    exact ⟨onlyErrorCounted_record hmoment s event rfl rfl rfl, rfl, rfl⟩
  | denied asker deny denied event => omega
  | admitted allow notTooLarge notDenied counted => exact absurd hstatus notTooLarge

theorem Answered.denied_leaves {clock : Clock} {request : Request} {s s' : Site σ}
    {response : Response} (h : Answered clock request s (.ok response, s'))
    (hstatus : response.status = 429) :
    OnlyErrorCounted clock s s' ∧
      ∃ peer, request.peer = some peer ∧
        s'.stats.rateLimitHits = s.stats.rateLimitHits + 1 ∧
        ∀ client, Stats.hitsOf client s'.stats.rateLimitedClients =
          Stats.hitsOf client s.stats.rateLimitedClients +
            if client = peer.ip.toText then 1 else 0 := by
  obtain ⟨reply, s₁, moment, limited, status, hmoment, rfl⟩ := h.of_error (by omega)
  rw [status] at hstatus
  cases limited with
  | tooLarge oversize tooLarge event => omega
  | @denied _ peer asker deny _ event =>
    refine ⟨onlyErrorCounted_record hmoment s event rfl rfl rfl, peer, peer_of_asker asker, rfl, ?_⟩
    exact fun client => Stats.hitsOf_countHit ..
  | admitted allow notTooLarge notDenied counted => exact absurd hstatus notDenied

/-! ### The bucket of an address -/

section Bucket

variable {clock : Clock} {asker? : Option SocketAddress} {ip : IPAddress} {l : Limiter}

theorem admission_of_loopback {peer : SocketAddress} (h : peer.ip.isLoopback = true) :
    admission clock (some peer) l = (.allow, l) := if_pos h

theorem admission_of_not_loopback {peer : SocketAddress} (h : peer.ip.isLoopback = false) :
    admission clock (some peer) l = l.checkKey clock.monotonic peer.ip.toText :=
  if_neg (by simp [h])

theorem admission_deny_iff :
    (admission clock asker? l).1 = .deny ↔ ∃ peer, asker? = some peer ∧ peer.ip.isLoopback = false ∧
      (decideOn l.period l.burst clock.monotonic (l.buckets.get? peer.ip.toText)).1 = .deny := by
  cases asker? with
  | none => simp [admission]
  | some peer =>
    cases hloopback : peer.ip.isLoopback with
    | true => simp [admission_of_loopback hloopback, hloopback]
    | false =>
      rw [admission_of_not_loopback hloopback, (Limiter.checkKey_eq _ _ l).1]
      simp [hloopback]

/-- Of an address that is no loopback address the limiter keeps what it decides on. -/
theorem get?_admission (hip : ip.isLoopback = false) :
    (admission clock asker? l).2.buckets.get? ip.toText =
      if asker?.map (·.ip) = some ip then
        (decideOn l.period l.burst clock.monotonic (l.buckets.get? ip.toText)).2
      else l.buckets.get? ip.toText := by
  cases asker? with
  | none => rfl
  | some peer =>
    simp only [Option.map_some, Option.some.injEq]
    cases hloopback : peer.ip.isLoopback with
    | true =>
      have hother : peer.ip ≠ ip := by
        rintro rfl
        simp [hloopback] at hip
      rw [admission_of_loopback hloopback, if_neg hother]
    | false =>
      rw [admission_of_not_loopback hloopback, (Limiter.checkKey_eq _ _ l).2.2.2]
      by_cases hsame : peer.ip = ip
      · rw [hsame, if_pos rfl, if_pos rfl]
      · rw [if_neg (fun htext => hsame (IPAddress.toText_injective htext).symm), if_neg hsame]

theorem rate_admission :
    (admission clock asker? l).2.period = l.period ∧
      (admission clock asker? l).2.burst = l.burst := by
  cases asker? with
  | none => exact ⟨rfl, rfl⟩
  | some peer =>
    cases hloopback : peer.ip.isLoopback with
    | true => simp [admission_of_loopback hloopback]
    | false =>
      rw [admission_of_not_loopback hloopback]
      obtain ⟨_, hperiod, hburst, _⟩ := Limiter.checkKey_eq clock.monotonic peer.ip.toText l
      exact ⟨hperiod, hburst⟩

end Bucket

/-! ### A run -/

def Occurrence.asker? (max : Nat) : Occurrence σ → Option SocketAddress
  | .request _ sent => sent.asker? max
  | .store _ => none

/-- What the limiter of a site is asked about an address in a run. -/
def asksFrom (ip : IPAddress) (max : Nat) (run : List (Timed (Occurrence σ))) :
    List (Timed Limiter.Ask) :=
  run.filterMap fun t =>
    ((t.call.asker? max).filter fun peer => decide (peer.ip = ip)).map fun peer =>
      ⟨t.clock, .socket peer⟩

/-- The token bucket of an address after a run, from what a site had of it at a moment on. -/
def bucketAfter (ip : IPAddress) (now : Nat) (s : Site σ) (run : List (Timed (Occurrence σ))) :
    Option TokenBucket :=
  stateAfter (TokenBucket.answer s.limiter.period s.limiter.burst)
    (asksFrom ip s.maxRequestSize run)
    ((s.limiter.buckets.get? ip.toText).map
      (TokenBucket.ofArrival s.limiter.period s.limiter.burst now))

section Concat

variable {ip : IPAddress} {max : Nat} {before : List (Timed (Occurrence σ))}
  {t : Timed (Occurrence σ)}

theorem asksFrom_concat_of_asker {peer : SocketAddress} (h : t.call.asker? max = some peer) :
    asksFrom peer.ip max (before ++ [t]) =
      asksFrom peer.ip max before ++ [⟨t.clock, .socket peer⟩] := by
  simp [asksFrom, h, Option.filter_some]

theorem asksFrom_concat_of_other (h : (t.call.asker? max).map (·.ip) ≠ some ip) :
    asksFrom ip max (before ++ [t]) = asksFrom ip max before := by
  rw [asksFrom, List.filterMap_append, ← asksFrom]
  cases hasker : t.call.asker? max with
  | none => simp [hasker]
  | some peer =>
    have hother : peer.ip ≠ ip := by simpa [hasker] using h
    simp [hasker, hother, Option.filter_some]

theorem bucketAfter_concat (ip : IPAddress) (now : Nat) (s : Site σ)
    (before : List (Timed (Occurrence σ))) (t : Timed (Occurrence σ)) :
    bucketAfter ip now s (before ++ [t]) =
      if (t.call.asker? s.maxRequestSize).map (·.ip) = some ip then
        (TokenBucket.answer s.limiter.period s.limiter.burst ⟨t.clock, .ip ip⟩
          (bucketAfter ip now s before)).2
      else bucketAfter ip now s before := by
  split
  · rename_i hsame
    obtain ⟨peer, hasker, rfl⟩ := Option.map_eq_some_iff.1 hsame
    rw [bucketAfter, asksFrom_concat_of_asker hasker, stateAfter_concat]
    rfl
  · rename_i hother
    rw [bucketAfter, asksFrom_concat_of_other hother, ← bucketAfter]

end Concat

section Run

variable [Backend σ] {now : Nat} {s : Site σ} {run : List (Timed (Occurrence σ))}

theorem limiter_occur (t : Timed (Occurrence σ)) (s : Site σ) :
    (occur t s).2.limiter = (admission t.clock (t.call.asker? s.maxRequestSize) s.limiter).2 ∧
      (occur t s).2.maxRequestSize = s.maxRequestSize := by
  unfold occur
  cases t.call with
  | request random request =>
    have h := answered t.clock random request s
    exact ⟨h.limiter, h.maxRequestSize⟩
  | store change => exact ⟨rfl, rfl⟩

/-- A site that was led to a state by a run keeps its limits, and for each address an arrival time
that agrees with the token bucket. -/
structure Follows (now : Nat) (s : Site σ) (before : List (Timed (Occurrence σ))) (s' : Site σ) :
    Prop where
  maxRequestSize : s'.maxRequestSize = s.maxRequestSize
  period : s'.limiter.period = s.limiter.period
  burst : s'.limiter.burst = s.limiter.burst
  agrees : ∀ ip : IPAddress, ip.isLoopback = false → ∀ clock : Clock, now ≤ clock.monotonic →
    (∀ i ∈ before, i.clock.monotonic ≤ clock.monotonic) →
    TokenBucket.Agrees s.limiter.period s.limiter.burst clock
      (s'.limiter.buckets.get? ip.toText) (bucketAfter ip now s before)

theorem Follows.occur {before : List (Timed (Occurrence σ))} {t : Timed (Occurrence σ)}
    {s' : Site σ} (h : Follows now s before s') (hperiod : 0 < s.limiter.period)
    (hburst : 0 < s.limiter.burst) (hnow : now ≤ t.clock.monotonic)
    (hpast : ∀ i ∈ before, i.clock.monotonic ≤ t.clock.monotonic) :
    Follows now s (before ++ [t]) (occur t s').2 := by
  obtain ⟨hlimiter, hmax⟩ := limiter_occur t s'
  obtain ⟨hperiod', hburst'⟩ := @rate_admission t.clock (t.call.asker? s'.maxRequestSize) s'.limiter
  refine ⟨hmax.trans h.maxRequestSize, ?_, ?_, ?_⟩
  · rw [hlimiter, hperiod', h.period]
  · rw [hlimiter, hburst', h.burst]
  · intro ip hip clock _ hlater
    have hagrees := h.agrees ip hip t.clock hnow hpast
    have hle : t.clock.monotonic ≤ clock.monotonic := hlater t (by simp)
    rw [hlimiter, get?_admission hip, bucketAfter_concat, h.maxRequestSize, h.period, h.burst]
    split
    · have hanswered := @TokenBucket.Agrees.answer _ _ ⟨t.clock, .ip ip⟩ _ _ hagrees hperiod hburst
      exact hanswered.2.later hle
    · exact hagrees.later hle

theorem follows_stateAfter (hperiod : 0 < s.limiter.period) (hburst : 0 < s.limiter.burst)
    (hforward : Forward run) (hnow : ∀ t ∈ run, now ≤ t.clock.monotonic) :
    Follows now s run (stateAfter occur run s) := by
  refine stateAfter_induction (fun (before : List (Timed (Occurrence σ))) (s' : Site σ) =>
    Follows now s before s') ?_ ?_
  · refine ⟨rfl, rfl, rfl, fun ip _ clock hclock _ => ?_⟩
    exact TokenBucket.agrees_ofArrival _ _ hclock _
  · rintro before t rest rfl s' h
    refine h.occur hperiod hburst (hnow t (by simp)) fun i hi => ?_
    exact (List.pairwise_append.1 hforward).2.2 i hi t List.mem_cons_self

/-- The token bucket of its client denies a request after a run. -/
def BucketDenies (now : Nat) (s : Site σ) (before : List (Timed (Occurrence σ))) (clock : Clock)
    (request : Request) : Prop :=
  ∃ peer, request.asker? s.maxRequestSize = some peer ∧ peer.ip.isLoopback = false ∧
    (TokenBucket.answer s.limiter.period s.limiter.burst ⟨clock, .ip peer.ip⟩
      (bucketAfter peer.ip now s before)).1 = .ok .deny

theorem admission_deny_iff_bucketDenies {before rest : List (Timed (Occurrence σ))}
    {t : Timed (Occurrence σ)} (hperiod : 0 < s.limiter.period) (hburst : 0 < s.limiter.burst)
    (hforward : Forward (before ++ t :: rest))
    (hnow : ∀ i ∈ before ++ t :: rest, now ≤ i.clock.monotonic) (request : Request) :
    (admission t.clock (request.asker? (stateAfter occur before s).maxRequestSize)
        (stateAfter occur before s).limiter).1 = .deny ↔
      BucketDenies now s before t.clock request := by
  obtain ⟨hbefore, _, hpast⟩ := List.pairwise_append.1 hforward
  have hfollows : Follows now s before (stateAfter occur before s) :=
    follows_stateAfter hperiod hburst hbefore fun i hi => hnow i (List.mem_append_left _ hi)
  rw [admission_deny_iff, hfollows.maxRequestSize, hfollows.period, hfollows.burst]
  apply exists_congr
  intro peer
  refine and_congr_right fun _ => and_congr_right fun hloopback => ?_
  -- the arrival time and the bucket agree, so they decide alike
  have hagrees := hfollows.agrees peer.ip hloopback t.clock (hnow t (by simp)) fun i hi =>
    hpast i hi t List.mem_cons_self
  have hanswered :=
    @TokenBucket.Agrees.answer _ _ ⟨t.clock, .ip peer.ip⟩ _ _ hagrees hperiod hburst
  rw [← hanswered.1, Limiter.answerAlone, Except.ok.injEq]

end Run

/-- **Rejected requests.** A request that is answered 413 leaves all but the count of errors, and
one that is answered 429 adds to the hits of its client besides. In a run a request is denied
exactly if the token bucket of its client says so: inside of the error count always, and in the
answer if the error can be counted. -/
theorem rejected_requests_only_counted [Backend σ] :
    (∀ (clock : Clock) (random : Bytes) (request : Request) (s s' : Site σ) (response : Response),
      answer clock random request s = (.ok response, s') → response.status = 413 →
      OnlyErrorCounted clock s s' ∧ s'.stats.rateLimitHits = s.stats.rateLimitHits ∧
        s'.stats.rateLimitedClients = s.stats.rateLimitedClients) ∧
    (∀ (clock : Clock) (random : Bytes) (request : Request) (s s' : Site σ) (response : Response),
      answer clock random request s = (.ok response, s') → response.status = 429 →
      OnlyErrorCounted clock s s' ∧
        ∃ peer, request.peer = some peer ∧
          s'.stats.rateLimitHits = s.stats.rateLimitHits + 1 ∧
          ∀ client, Stats.hitsOf client s'.stats.rateLimitedClients =
            Stats.hitsOf client s.stats.rateLimitedClients +
              if client = peer.ip.toText then 1 else 0) ∧
    ∀ (now : Nat) (s : Site σ) (run before rest : List (Timed (Occurrence σ))) (clock : Clock)
      (random : Bytes) (request : Request), 0 < s.limiter.period → 0 < s.limiter.burst →
      Forward run → (∀ t ∈ run, now ≤ t.clock.monotonic) →
      run = before ++ ⟨clock, .request random request⟩ :: rest →
      (request.method ≠ .options →
        ((∃ response, (limited clock random request (stateAfter occur before s)).1 = .ok response ∧
          response.status = 429) ↔ BucketDenies now s before clock request)) ∧
      ((∃ response, (answer clock random request (stateAfter occur before s)).1 = .ok response ∧
        response.status = 429) ↔
          BucketDenies now s before clock request ∧ clock.moment?.isSome = true) := by
  refine ⟨?_, ?_, ?_⟩
  · intro clock random request s s' response hanswer hstatus
    have h := answered clock random request s
    rw [hanswer] at h
    exact h.tooLarge_leaves hstatus
  · intro clock random request s s' response hanswer hstatus
    have h := answered clock random request s
    rw [hanswer] at h
    exact h.denied_leaves hstatus
  · rintro now s run before rest clock random request hperiod hburst hforward hnow rfl
    have hdenies := admission_deny_iff_bucketDenies hperiod hburst hforward hnow request
    constructor
    · intro hmethod
      rw [← hdenies]
      exact (limited_ends clock random hmethod _).denied_iff
    · rw [← hdenies]
      exact (answered clock random request _).denied_iff

/-- A request that declares a byte more than the sample site allows. -/
def largeUpload : Request where
  method := .other "POST".toList
  uri := ⟨"/health".toList, none⟩
  headers := [⟨"content-length".toList, Text.toUtf8 "10241".toList⟩]
  peer := some ⟨Limiter.samplePeer, 50001, 0⟩

theorem rejected_requests_only_counted_sample :
    let clock : Clock := ⟨sampleWall, 0⟩
    let before := healthChecks [sampleWall, sampleWall]
    let s := stateAfter occur before sampleSite
    Forward (before ++ [⟨clock, .request [] healthCheck⟩]) ∧
      (∃ response s', answer clock [] largeUpload s = (.ok response, s') ∧
        response.status = 413 ∧ OnlyErrorCounted clock s s') ∧
      (∃ response s', answer clock [] healthCheck s = (.ok response, s') ∧
        response.status = 429 ∧ OnlyErrorCounted clock s s') ∧
      BucketDenies 0 sampleSite before clock healthCheck := by
  intro clock before s
  have hforward : Forward (before ++ [⟨clock, .request [] healthCheck⟩]) := by decide
  obtain ⟨htooLarge, hdenied, hrun⟩ := @rejected_requests_only_counted Memory _
  obtain ⟨large, s₁, hlarge, hlargeStatus⟩ :=
    @exists_of_map _ _ (answer clock [] largeUpload s) (·.status) 413 (by decide +kernel)
  obtain ⟨denied, s₂, hanswer, hstatus⟩ :=
    @exists_of_map _ _ (answer clock [] healthCheck s) (·.status) 429 (by decide +kernel)
  have hbucket := (hrun 0 sampleSite _ before [] clock [] healthCheck (by decide) (by decide)
    hforward (fun t _ => Nat.zero_le _) rfl).2
  refine ⟨hforward, ⟨large, s₁, hlarge, hlargeStatus, ?_⟩, ⟨denied, s₂, hanswer, hstatus, ?_⟩, ?_⟩
  · exact (htooLarge clock [] largeUpload s s₁ large hlarge hlargeStatus).1
  · exact (hdenied clock [] healthCheck s s₂ denied hanswer hstatus).1
  · exact (hbucket.1 ⟨denied, by rw [hanswer], hstatus⟩).1

end DeadDrop.Http
