import DeadDrop.Limiter
import DeadDrop.Proofs.Net.Address
import DeadDrop.Proofs.Table
import DeadDrop.Proofs.Transcript

/-!
# The clients of a limiter

A limiter is asked about a client in three ways: by the text of its address, by its address, and by
its socket address. Whichever way it is, the question is about one client, an address or a host that
is no address, and what the limiter keeps about clients is keyed by text. The canonical texts of
addresses are read back, so no two clients share a key.

Hence the limiter can be taken apart. What it answers about one client is what a machine answers
that knows of no other client, and keeps a single theoretical arrival time
(`answersTo_eq`).
-/

namespace DeadDrop.Limiter

/-! ### Clients -/

/-- Who is charged for a request: an address, or a host that is no address. -/
inductive Client where
  | address (ip : IPAddress)
  | host (name : Text) (unread : IPAddress.ofText? name = none)
  deriving DecidableEq

namespace Client

def key : Client → Text
  | .address ip => ip.toText
  | .host name _ => name

def isLoopback : Client → Bool
  | .address ip => ip.isLoopback
  | .host _ _ => false

def ofHost (name : Text) : Client :=
  match h : IPAddress.ofText? name with
  | some ip => .address ip
  | none => .host name h

theorem ofHost_of_some {name : Text} {ip : IPAddress} (h : IPAddress.ofText? name = some ip) :
    ofHost name = .address ip := by
  unfold ofHost
  split
  · rename_i hread
    rw [Option.some.inj (hread.symm.trans h)]
  · rename_i hread
    exact absurd (hread.symm.trans h) (by simp)

theorem ofHost_of_none {name : Text} (h : IPAddress.ofText? name = none) :
    ofHost name = .host name h := by
  unfold ofHost
  split
  · rename_i hread
    exact absurd (hread.symm.trans h) (by simp)
  · rfl

theorem ofText?_key (c : Client) :
    IPAddress.ofText? c.key = match c with
      | .address ip => some ip
      | .host _ _ => none := by
  cases c with
  | address ip => exact IPAddress.ofText?_toText ip
  | host name unread => exact unread

theorem key_injective : Function.Injective key := by
  intro c d hkey
  have hread : IPAddress.ofText? c.key = IPAddress.ofText? d.key := by rw [hkey]
  rw [ofText?_key, ofText?_key] at hread
  cases c with
  | address ip =>
    cases d with
    | address ip' => rw [IPAddress.toText_injective hkey]
    | host name unread => exact absurd hread (by simp)
  | host name unread =>
    cases d with
    | address ip' => exact absurd hread (by simp)
    | host name' unread' =>
      obtain rfl : name = name' := hkey
      rfl

end Client

/-! ### Questions -/

/-- A question to a limiter. -/
inductive Ask where
  | text (client : Text)
  | ip (address : IPAddress)
  | socket (address : SocketAddress)

/-- Whom a question is about; no one, if the text is not the address of a client. -/
def Ask.client? : Ask → Option Client
  | .text client => (hostOf? client).map Client.ofHost
  | .ip address => some (.address address)
  | .socket address => some (.address address.ip)

/-- The limiter's answer to a question, at the time of the monotonic clock. -/
def answer (i : Timed Ask) (l : Limiter) : Except Error Admission × Limiter :=
  match i.call with
  | .text client => l.check i.clock.monotonic client
  | .ip address =>
    (.ok (l.checkIp i.clock.monotonic address).1, (l.checkIp i.clock.monotonic address).2)
  | .socket address =>
    (.ok (l.checkSocket i.clock.monotonic address).1,
      (l.checkSocket i.clock.monotonic address).2)

/-- The questions of a run with their answers. -/
def answers (run : List (Timed Ask)) (l : Limiter) : List (Timed Ask × Except Error Admission) :=
  transcript answer run l

def asksOf (c : Client) (run : List (Timed Ask)) : List (Timed Ask) :=
  run.filter fun i => decide (i.call.client? = some c)

/-- What of the answers in a run is about one client. -/
def answersTo (c : Client) (run : List (Timed Ask)) (l : Limiter) :
    List (Timed Ask × Except Error Admission) :=
  (answers run l).filter fun e => decide (e.1.call.client? = some c)

variable {i : Timed Ask} {c : Client}

theorem answer_of_no_client (h : i.call.client? = none) (l : Limiter) :
    ∃ reason, answer i l = (.error reason, l) := by
  obtain ⟨clock, call⟩ := i
  cases call with
  | text client =>
    have hhost : hostOf? client = none := Option.map_eq_none_iff.1 h
    exact ⟨.badClientAddress client, by simp only [answer, check, hhost]⟩
  | ip address => exact absurd h (by simp [Ask.client?])
  | socket address => exact absurd h (by simp [Ask.client?])

theorem checkIp_eq (now : Nat) (ip : IPAddress) (l : Limiter) :
    l.checkIp now ip =
      if (Client.address ip).isLoopback then (.allow, l)
      else l.checkKey now (Client.address ip).key := rfl

theorem answer_of_client (h : i.call.client? = some c) (l : Limiter) :
    answer i l =
      if c.isLoopback then (.ok .allow, l)
      else
        (.ok (l.checkKey i.clock.monotonic c.key).1,
          (l.checkKey i.clock.monotonic c.key).2) := by
  obtain ⟨clock, call⟩ := i
  cases call with
  | text client =>
    obtain ⟨host, hhost, rfl⟩ := Option.map_eq_some_iff.1 h
    cases hread : IPAddress.ofText? host with
    | some address =>
      rw [Client.ofHost_of_some hread]
      simp only [answer, check, hhost, hread, checkIp_eq]
      split <;> rfl
    | none =>
      rw [Client.ofHost_of_none hread]
      simp only [answer, check, hhost, hread]
      rfl
  | ip address =>
    obtain rfl := Option.some.inj h
    simp only [answer, checkIp_eq]
    split <;> rfl
  | socket address =>
    obtain rfl := Option.some.inj h
    simp only [answer, checkSocket, checkIp_eq]
    split <;> rfl

/-! ### One bucket -/

/-- The decision on a request of a client whose theoretical arrival time is known, or who has not
been seen yet, and the arrival time after it. -/
def decideOn (period burst now : Nat) (arrival? : Option Nat) : Admission × Option Nat :=
  let arrival := arrival?.getD now
  if arrival ≤ now + period * (burst - 1) then (.allow, some (max arrival now + period))
  else (.deny, arrival?)

theorem decideOn_none (period burst now : Nat) :
    decideOn period burst now none = decideOn period burst now (some now) := by
  rw [decideOn, decideOn, Option.getD_none, Option.getD_some, if_pos (Nat.le_add_right ..),
    if_pos (Nat.le_add_right ..)]

theorem isSome_decideOn (period burst now : Nat) (arrival? : Option Nat) :
    (decideOn period burst now arrival?).2.isSome = true := by
  unfold decideOn
  cases arrival? with
  | none => simp
  | some arrival =>
    simp only
    split <;> rfl

/-- A request is decided on the bucket under its key, and leaves all else as it is. -/
theorem checkKey_eq (now : Nat) (key : Text) (l : Limiter) :
    (l.checkKey now key).1 = (decideOn l.period l.burst now (l.buckets.get? key)).1 ∧
      (l.checkKey now key).2.period = l.period ∧ (l.checkKey now key).2.burst = l.burst ∧
      ∀ other, (l.checkKey now key).2.buckets.get? other =
        if other = key then (decideOn l.period l.burst now (l.buckets.get? key)).2
        else l.buckets.get? other := by
  unfold checkKey decideOn
  simp only
  split
  · exact ⟨rfl, rfl, rfl, fun other => Table.get?_insert ..⟩
  · refine ⟨rfl, rfl, rfl, fun other => ?_⟩
    by_cases hkey : other = key
    · rw [if_pos hkey, hkey]
    · rw [if_neg hkey]

theorem checkKey_of_deny {now : Nat} {key : Text} {l : Limiter}
    (h : (l.checkKey now key).1 = .deny) : (l.checkKey now key).2 = l := by
  unfold checkKey at h ⊢
  simp only at h ⊢
  split at h
  · exact absurd h (by simp)
  · rename_i hlate
    rw [if_neg hlate]

theorem answer_of_deny {l : Limiter} (h : (answer i l).1 = .ok .deny) : (answer i l).2 = l := by
  cases hclient : i.call.client? with
  | none =>
    obtain ⟨reason, hanswer⟩ := answer_of_no_client hclient l
    rw [hanswer]
  | some c =>
    rw [answer_of_client hclient] at h ⊢
    split
    · rfl
    · rename_i hloopback
      rw [if_neg hloopback] at h
      exact checkKey_of_deny (Except.ok.inj h)

/-- A question that is not about a client leaves the client's bucket. -/
theorem answer_of_other (h : i.call.client? ≠ some c) (l : Limiter) :
    (answer i l).2.period = l.period ∧ (answer i l).2.burst = l.burst ∧
      (answer i l).2.buckets.get? c.key = l.buckets.get? c.key := by
  cases hother : i.call.client? with
  | none =>
    obtain ⟨reason, hanswer⟩ := answer_of_no_client hother l
    rw [hanswer]
    exact ⟨rfl, rfl, rfl⟩
  | some d =>
    -- another client is charged under another key
    have hne : c.key ≠ d.key := by
      intro hkey
      rw [hother, Client.key_injective hkey] at h
      exact h rfl
    rw [answer_of_client hother]
    split
    · exact ⟨rfl, rfl, rfl⟩
    · obtain ⟨_, hperiod, hburst, hbuckets⟩ := checkKey_eq i.clock.monotonic d.key l
      refine ⟨hperiod, hburst, ?_⟩
      rw [hbuckets, if_neg hne]

/-! ### One client -/

/-- The answer to a question of one client, from the arrival time of that client alone. -/
def answerAlone (period burst : Nat) (i : Timed Ask) (arrival? : Option Nat) :
    Except Error Admission × Option Nat :=
  (.ok (decideOn period burst i.clock.monotonic arrival?).1,
    (decideOn period burst i.clock.monotonic arrival?).2)

/-- All that a question can do to the arrival time. -/
theorem answerAlone_cases (period burst : Nat) (i : Timed Ask) (arrival? : Option Nat) :
    (arrival?.getD i.clock.monotonic ≤ i.clock.monotonic + period * (burst - 1) ∧
      answerAlone period burst i arrival? =
        (.ok .allow, some (max (arrival?.getD i.clock.monotonic) i.clock.monotonic + period))) ∨
    (i.clock.monotonic + period * (burst - 1) < arrival?.getD i.clock.monotonic ∧
      answerAlone period burst i arrival? = (.ok .deny, arrival?)) := by
  unfold answerAlone decideOn
  simp only
  split
  · rename_i hnear
    exact .inl ⟨hnear, rfl⟩
  · rename_i hfar
    exact .inr ⟨Nat.lt_of_not_le hfar, rfl⟩

/-- **Clients are apart.** What a limiter answers about a client that is no loopback address is
answered from that client's arrival time and its own questions. -/
theorem answersTo_eq (hc : c.isLoopback = false) (run : List (Timed Ask)) (l : Limiter) :
    answersTo c run l =
      transcript (answerAlone l.period l.burst) (asksOf c run) (l.buckets.get? c.key) := by
  refine filter_transcript_eq
    (fun _ l' arrival? => (l'.period = l.period ∧ l'.burst = l.burst) ∧
      l'.buckets.get? c.key = arrival?)
    (fun ask : Ask => decide (ask.client? = some c)) ?_ ?_ (carried_const _ _)
    fun _ _ => ⟨⟨rfl, rfl⟩, rfl⟩
  · rintro i _ hclient l' _ ⟨⟨hperiod, hburst⟩, rfl⟩
    obtain ⟨hdecision, hperiod', hburst', hbuckets⟩ := checkKey_eq i.clock.monotonic c.key l'
    rw [answer_of_client (of_decide_eq_true hclient), hc, if_neg (by simp), answerAlone,
      ← hperiod, ← hburst]
    refine ⟨by rw [hdecision], ⟨hperiod', hburst'⟩, ?_⟩
    rw [hbuckets, if_pos rfl]
  · rintro i _ hclient l' _ ⟨⟨hperiod, hburst⟩, rfl⟩
    obtain ⟨hperiod', hburst', hbucket⟩ := answer_of_other (of_decide_eq_false hclient) l'
    exact ⟨⟨hperiod'.trans hperiod, hburst'.trans hburst⟩, hbucket⟩

theorem answersTo_of_empty {l : Limiter} (hempty : l.buckets = Table.empty)
    (hc : c.isLoopback = false) (run : List (Timed Ask)) :
    answersTo c run l = transcript (answerAlone l.period l.burst) (asksOf c run) none := by
  have hunseen : l.buckets.get? c.key = none := by
    rw [hempty]
    rfl
  rw [answersTo_eq hc, hunseen]

/-! ### A run -/

def samplePeer : IPAddress := .v4 ⟨10, 0, 0, 1⟩

/-- A token in ten nanoseconds, and room for two. -/
def sampleLimiter : Limiter :=
  { perSecond := .ofInt 100000000, burst := 2, period := 10, buckets := Table.empty }

def sampleAsks : List (Timed Ask) :=
  [(0, .text "10.0.0.1:80".toList), (0, .ip (.v4 ⟨127, 0, 0, 1⟩)), (3, .ip samplePeer),
    (4, .text "10.0.0.1:81".toList), (6, .text "nowhere".toList), (14, .socket ⟨samplePeer, 82, 0⟩),
    (15, .text "localhost:80".toList), (40, .ip samplePeer), (41, .ip samplePeer),
    (42, .ip samplePeer)].map fun p => ⟨⟨0, p.1⟩, p.2⟩

end DeadDrop.Limiter
