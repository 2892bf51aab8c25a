import DeadDrop.Proofs.Limiter.Clients
import Mathlib.Algebra.Order.Field.Rat
import Mathlib.Data.Nat.Cast.Order.Field
import Mathlib.Tactic.Linarith
import Mathlib.Tactic.Ring

/-!
# Token buckets

A bucket holds a rational number of tokens. It starts full, gains a token in every refill period up
to its size, and a request takes one token if there is one, and is denied otherwise. The limiter
keeps no tokens but a time, at which the bucket would be full again: at every moment the tokens that
are missing are the refill periods from that moment to the arrival time. This relation is kept by
every request, so the limiter decides as the buckets do.
-/

namespace DeadDrop.Limiter

/-- The tokens of a client at the time of the client's last request. -/
structure TokenBucket where
  tokens : ℚ
  time : Nat

namespace TokenBucket

def full (burst now : Nat) : TokenBucket := { tokens := burst, time := now }

/-- The tokens at a later time: one more for each refill period, and not more than the bucket
holds. -/
def level (period burst now : Nat) (bucket : TokenBucket) : ℚ :=
  min (burst : ℚ) (bucket.tokens + ((now : ℚ) - bucket.time) / period)

/-- Takes a token if there is one. -/
def request (period burst now : Nat) (bucket : TokenBucket) : Admission × TokenBucket :=
  let tokens := bucket.level period burst now
  if 1 ≤ tokens then (.allow, { tokens := tokens - 1, time := now })
  else (.deny, { tokens, time := now })

/-- The answer to a question of one client, whose bucket starts full at the first question. -/
def answer (period burst : Nat) (i : Timed Ask) (bucket? : Option TokenBucket) :
    Except Error Admission × Option TokenBucket :=
  let bucket := bucket?.getD (full burst i.clock.monotonic)
  (.ok (bucket.request period burst i.clock.monotonic).1,
    some (bucket.request period burst i.clock.monotonic).2)

variable {period burst now arrival : Nat} {bucket : TokenBucket}

/-- What is missing from the bucket is what comes back until the arrival time. -/
def Owes (period burst arrival : Nat) (bucket : TokenBucket) : Prop :=
  bucket.tokens = burst - ((arrival - bucket.time : Nat) : ℚ) / period

theorem full_owes (period burst now : Nat) : Owes period burst now (full burst now) := by
  simp [Owes, full]

theorem Owes.level_eq (h : Owes period burst arrival bucket) (hperiod : 0 < period)
    (htime : bucket.time ≤ now) :
    bucket.level period burst now = burst - ((arrival - now : Nat) : ℚ) / period := by
  have hpos : (0 : ℚ) < period := by exact_mod_cast hperiod
  rw [level, h]
  by_cases harrival : arrival ≤ now
  · -- the bucket is full again
    have hnone : arrival - now = 0 := by omega
    have hback : ((arrival - bucket.time : Nat) : ℚ) / period ≤
        ((now : ℚ) - bucket.time) / period := by
      rw [← Nat.cast_sub htime]
      gcongr
    rw [hnone, min_eq_left (by linarith)]
    simp
  · -- the bucket is still filling
    have hleft : ((arrival - bucket.time : Nat) : ℚ) =
        ((arrival - now : Nat) : ℚ) + ((now : ℚ) - bucket.time) := by
      rw [Nat.cast_sub (by omega), Nat.cast_sub (by omega)]
      ring
    have hlevel : (burst : ℚ) - ((arrival - bucket.time : Nat) : ℚ) / period +
        ((now : ℚ) - bucket.time) / period = burst - ((arrival - now : Nat) : ℚ) / period := by
      rw [hleft, add_div]
      ring
    rw [hlevel, min_eq_right]
    have hnonneg : (0 : ℚ) ≤ ((arrival - now : Nat) : ℚ) / period := by positivity
    linarith

theorem one_le_iff (arrival now : Nat) (hperiod : 0 < period) (hburst : 0 < burst) :
    (1 : ℚ) ≤ burst - ((arrival - now : Nat) : ℚ) / period ↔
      arrival ≤ now + period * (burst - 1) := by
  have hpos : (0 : ℚ) < period := by exact_mod_cast hperiod
  calc (1 : ℚ) ≤ burst - ((arrival - now : Nat) : ℚ) / period
    _ ↔ ((arrival - now : Nat) : ℚ) / period ≤ ((burst - 1 : Nat) : ℚ) := by
      rw [Nat.cast_sub hburst, Nat.cast_one, le_sub_comm]
    _ ↔ ((arrival - now : Nat) : ℚ) ≤ ((burst - 1 : Nat) : ℚ) * period := div_le_iff₀ hpos
    _ ↔ arrival - now ≤ (burst - 1) * period := by rw [← Nat.cast_mul, Nat.cast_le]
    _ ↔ arrival ≤ now + period * (burst - 1) := by
      rw [Nat.sub_le_iff_le_add, Nat.mul_comm, Nat.add_comm]

/-- One request: the same decision, and what is missing still is what comes back. -/
theorem Owes.request (h : Owes period burst arrival bucket) (hperiod : 0 < period)
    (hburst : 0 < burst) (htime : bucket.time ≤ now) :
    (decideOn period burst now (some arrival)).1 = (bucket.request period burst now).1 ∧
      ∃ arrival', (decideOn period burst now (some arrival)).2 = some arrival' ∧
        Owes period burst arrival' (bucket.request period burst now).2 := by
  have hpos : (0 : ℚ) < period := by exact_mod_cast hperiod
  have hlevel := h.level_eq hperiod htime
  have htoken := one_le_iff arrival now hperiod hburst
  rw [← hlevel] at htoken
  by_cases harrival : arrival ≤ now + period * (burst - 1)
  · have hdecide : decideOn period burst now (some arrival) =
        (.allow, some (max arrival now + period)) := if_pos harrival
    have hrequest : bucket.request period burst now =
        (.allow, ⟨bucket.level period burst now - 1, now⟩) := if_pos (htoken.2 harrival)
    rw [hdecide, hrequest]
    refine ⟨rfl, _, rfl, ?_⟩
    have hnext : max arrival now + period - now = (arrival - now) + period := by omega
    rw [Owes, hlevel, hnext, Nat.cast_add, add_div, div_self hpos.ne']
    ring
  · have hdecide : decideOn period burst now (some arrival) = (.deny, some arrival) :=
      if_neg harrival
    have hrequest : bucket.request period burst now =
        (.deny, ⟨bucket.level period burst now, now⟩) := if_neg (mt htoken.1 harrival)
    rw [hdecide, hrequest]
    exact ⟨rfl, arrival, rfl, hlevel⟩

theorem request_time (period burst now : Nat) (bucket : TokenBucket) :
    (bucket.request period burst now).2.time = now := by
  unfold request
  simp only
  split <;> rfl

/-- A client's arrival time and bucket at the same point of a run: both are still to come, or the
tokens that are missing come back until the arrival time. -/
inductive Agrees (period burst : Nat) (clock : Clock) : Option Nat → Option TokenBucket → Prop
  | unseen : Agrees period burst clock none none
  | seen {arrival : Nat} {bucket : TokenBucket} (past : bucket.time ≤ clock.monotonic)
      (owes : Owes period burst arrival bucket) :
      Agrees period burst clock (some arrival) (some bucket)

theorem Agrees.later {c d : Clock} {arrival? : Option Nat} {bucket? : Option TokenBucket}
    (h : Agrees period burst c arrival? bucket?) (hle : c.monotonic ≤ d.monotonic) :
    Agrees period burst d arrival? bucket? := by
  cases h with
  | unseen => exact .unseen
  | seen past owes => exact .seen (past.trans hle) owes

/-- The bucket that an arrival time stands for at a moment. -/
def ofArrival (period burst now arrival : Nat) : TokenBucket where
  tokens := burst - ((arrival - now : Nat) : ℚ) / period
  time := now

theorem agrees_ofArrival (period burst : Nat) {now : Nat} {clock : Clock}
    (hnow : now ≤ clock.monotonic) (arrival? : Option Nat) :
    Agrees period burst clock arrival? (arrival?.map (ofArrival period burst now)) := by
  cases arrival? with
  | none => exact .unseen
  | some arrival => exact .seen hnow rfl

theorem Agrees.answer {i : Timed Ask} {arrival? : Option Nat} {bucket? : Option TokenBucket}
    (h : Agrees period burst i.clock arrival? bucket?) (hperiod : 0 < period) (hburst : 0 < burst) :
    (answerAlone period burst i arrival?).1 = (answer period burst i bucket?).1 ∧
      Agrees period burst i.clock (answerAlone period burst i arrival?).2
        (answer period burst i bucket?).2 := by
  -- a client that was not seen yet is one whose bucket is full now
  have hstart : ∃ arrival, decideOn period burst i.clock.monotonic arrival? =
        decideOn period burst i.clock.monotonic (some arrival) ∧
      (bucket?.getD (full burst i.clock.monotonic)).time ≤ i.clock.monotonic ∧
      Owes period burst arrival (bucket?.getD (full burst i.clock.monotonic)) := by
    cases h with
    | unseen =>
      exact ⟨i.clock.monotonic, decideOn_none .., Nat.le_refl _, full_owes ..⟩
    | @seen arrival bucket past owes => exact ⟨arrival, rfl, past, owes⟩
  obtain ⟨arrival, hdecide, htime, howes⟩ := hstart
  obtain ⟨hdecision, arrival', harrival', howes'⟩ := howes.request hperiod hburst htime
  refine ⟨?_, ?_⟩
  · rw [answerAlone, hdecide, hdecision, TokenBucket.answer]
  · rw [answerAlone, hdecide, harrival']
    exact .seen (request_time ..).le howes'

theorem transcript_answerAlone_eq {own : List (Timed Ask)} (hforward : Forward own)
    (hperiod : 0 < period) (hburst : 0 < burst) :
    transcript (answerAlone period burst) own none = transcript (answer period burst) own none := by
  refine transcript_eq (Agrees period burst) (fun i _ _ _ h => h.answer hperiod hburst) ?_
    fun _ _ => .unseen
  exact hforward.imp fun hle _ _ h => h.later hle

end TokenBucket

/-! ### The clients that have been seen -/

/-- The clients with a bucket: those that asked, loopback addresses apart. -/
def Charged (run : List (Timed Ask)) (c : Client) : Prop :=
  c.isLoopback = false ∧ ∃ i ∈ run, i.call.client? = some c

theorem charged_concat_iff {before : List (Timed Ask)} {i : Timed Ask} {c : Client} :
    Charged (before ++ [i]) c ↔
      Charged before c ∨ c.isLoopback = false ∧ i.call.client? = some c := by
  simp only [Charged, List.mem_append, List.mem_singleton, or_and_right, exists_or, exists_eq_left,
    and_or_left]

theorem isSome_get?_answer (i : Timed Ask) (l : Limiter) (key : Text) :
    ((answer i l).2.buckets.get? key).isSome = true ↔
      (l.buckets.get? key).isSome = true ∨
        ∃ c, c.key = key ∧ c.isLoopback = false ∧ i.call.client? = some c := by
  cases hclient : i.call.client? with
  | none =>
    obtain ⟨reason, hanswer⟩ := answer_of_no_client hclient l
    rw [hanswer]
    simp
  | some d =>
    rw [answer_of_client hclient]
    cases hloopback : d.isLoopback with
    | true =>
      rw [if_pos rfl]
      refine ⟨.inl, ?_⟩
      rintro (hsome | ⟨c, _, hc, heq⟩)
      · exact hsome
      · rw [Option.some.inj heq, hc] at hloopback
        exact absurd hloopback (by simp)
    | false =>
      rw [if_neg (by simp), (checkKey_eq i.clock.monotonic d.key l).2.2.2]
      by_cases hkey : key = d.key
      · rw [if_pos hkey, isSome_decideOn]
        exact iff_of_true rfl (.inr ⟨d, hkey.symm, hloopback, rfl⟩)
      · rw [if_neg hkey]
        refine ⟨.inl, ?_⟩
        rintro (hsome | ⟨c, hc, _, heq⟩)
        · exact hsome
        · rw [Option.some.inj heq] at hkey
          exact absurd hc.symm hkey

theorem isSome_get?_stateAfter {l : Limiter} (hempty : l.buckets = Table.empty)
    (run : List (Timed Ask)) (key : Text) :
    ((stateAfter answer run l).buckets.get? key).isSome = true ↔
      ∃ c, c.key = key ∧ Charged run c := by
  refine stateAfter_induction
    (fun before (l' : Limiter) => (l'.buckets.get? key).isSome = true ↔
      ∃ c : Client, c.key = key ∧ Charged before c) ?_ ?_
  · rw [hempty]
    simp [Table.empty, Table.get?, Assoc.get?, Charged]
  · intro before i rest _ l' h
    rw [isSome_get?_answer, h]
    simp only [charged_concat_iff, and_or_left, exists_or]

theorem trackedClients_stateAfter {l : Limiter} (hempty : l.buckets = Table.empty)
    (run : List (Timed Ask)) :
    (stateAfter answer run l).trackedClients = {c | Charged run c}.ncard := by
  have hkeys : {key | ∃ arrival, (stateAfter answer run l).buckets.get? key = some arrival} =
      Client.key '' {c | Charged run c} := by
    ext key
    rw [Set.mem_ofPred_eq, ← Option.isSome_iff_exists, isSome_get?_stateAfter hempty]
    exact exists_congr fun c => and_comm
  rw [trackedClients, Table.size_eq_ncard, hkeys,
    Set.ncard_image_of_injective _ Client.key_injective]

/-! ### The limiter -/

/-- A limiter that was made has a refill period, room for a token, and no buckets. -/
theorem make_eq_ok {perSecond : Binary64} {burst : Nat} {l : Limiter}
    (h : make perSecond burst = .ok l) :
    0 < l.period ∧ 0 < l.burst ∧ l.buckets = Table.empty := by
  unfold make at h
  split at h
  · simp at h
  · split at h
    · simp at h
    · rename_i hburst
      split at h
      · simp at h
      · rename_i period _
        by_cases hperiod : period = 0
        · simp [hperiod] at h
        · by_cases hlimit : periodLimit ≤ period
          · simp [hperiod, hlimit] at h
          · simp only [if_neg hperiod, if_neg hlimit, Outcome.ok.injEq] at h
            subst h
            exact ⟨Nat.pos_of_ne_zero hperiod, Nat.pos_of_ne_zero hburst, rfl⟩

/-- In a run the limiter decides as token buckets do, one for each client. -/
structure DecidesByBuckets (run : List (Timed Ask)) (l : Limiter) : Prop where
  /-- A client is answered from its own questions, by a bucket that starts full. -/
  client : ∀ c : Client, c.isLoopback = false →
    answersTo c run l = transcript (TokenBucket.answer l.period l.burst) (asksOf c run) none
  /-- Any of the denied questions can be left out, and all others are answered as before. -/
  denied : ∀ kept : List (Timed Ask × Except Error Admission), kept.Sublist (answers run l) →
    kept.filter (fun e => decide (e.2 ≠ .ok .deny)) =
      (answers run l).filter (fun e => decide (e.2 ≠ .ok .deny)) →
    answers (kept.map Prod.fst) l = kept
  /-- Loopback addresses are allowed, whatever the limiter has seen, and have no bucket. -/
  loopback : ∀ (i : Timed Ask) (c : Client), i.call.client? = some c → c.isLoopback = true →
    ∀ l' : Limiter, answer i l' = (.ok .allow, l')
  tracked : (stateAfter answer run l).trackedClients = {c | Charged run c}.ncard

/-- **Token buckets.** A limiter without clients admits as a token bucket for each of them. -/
theorem decidesByBuckets {l : Limiter} (hempty : l.buckets = Table.empty) (hperiod : 0 < l.period)
    (hburst : 0 < l.burst) {run : List (Timed Ask)} (hforward : Forward run) :
    DecidesByBuckets run l where
  client c hc := by
    rw [answersTo_of_empty hempty hc]
    exact TokenBucket.transcript_answerAlone_eq (hforward.filter _) hperiod hburst
  denied kept hsublist hkept := by
    refine transcript_of_sublist (fun a => decide (a ≠ .ok .deny)) (fun i l' hdeny => ?_) hsublist
      hkept
    exact answer_of_deny (by simpa using hdeny)
  loopback i c hclient hloopback l' := by
    rw [answer_of_client hclient, if_pos hloopback]
  tracked := trackedClients_stateAfter hempty run

theorem decidesByBuckets_sample :
    make (.ofInt 100000000) 2 = .ok sampleLimiter ∧ sampleLimiter.buckets = Table.empty ∧
      0 < sampleLimiter.period ∧ 0 < sampleLimiter.burst ∧ Forward sampleAsks ∧
      DecidesByBuckets sampleAsks sampleLimiter := by
  have hmake : make (.ofInt 100000000) 2 = .ok sampleLimiter := rfl
  obtain ⟨hperiod, hburst, hempty⟩ := make_eq_ok hmake
  have hforward : Forward sampleAsks := by decide
  exact ⟨hmake, hempty, hperiod, hburst, hforward,
    decidesByBuckets hempty hperiod hburst hforward⟩

example : (answersTo (.address samplePeer) sampleAsks sampleLimiter).map Prod.snd =
    [.ok .allow, .ok .allow, .ok .deny, .ok .allow, .ok .allow, .ok .allow, .ok .deny] := by
  decide +kernel

end DeadDrop.Limiter
