import DeadDrop.Action
import DeadDrop.Assoc
import DeadDrop.Binary64.Text
import DeadDrop.Error
import DeadDrop.Net.Address
import DeadDrop.Time.Clock

/-!
# The rate limiter

Every client has a bucket of tokens that refills at a fixed rate, and each request takes one. A
bucket is kept as a single time, its theoretical arrival time: the moment from which on it would be
full again. A request is allowed if that moment is at most `burst - 1` refill periods ahead, and
then moves it ahead by one period.

Clients are told apart by their host. Loopback addresses are always allowed and have no bucket.
-/

namespace DeadDrop

inductive RateError where
  | notPositive (rate : Binary64)
  | noBurst
  | tooLow (rate : Binary64)
  | tooHigh (rate : Binary64)
  deriving DecidableEq, Repr

def RateError.message : RateError → Text
  | .notPositive rate =>
    "rate limit must be a positive number of requests per second, got ".toList ++ rate.toText
  | .noBurst => "rate limit burst must be at least 1".toList
  | .tooLow rate =>
    "invalid rate limit ".toList ++ rate.toText ++
      ": cannot convert float seconds to Duration: value is either too big or NaN".toList
  | .tooHigh rate => "rate limit ".toList ++ rate.toText ++ "/s is too high".toList

inductive Admission where
  | allow
  | deny
  deriving DecidableEq, Repr

/-- A rate, the size of a bucket, the time in which one token comes back, in nanoseconds, and the
theoretical arrival time of each client. -/
structure Limiter where
  perSecond : Binary64
  burst : Nat
  period : Nat
  buckets : Table Text Nat

namespace Limiter

/-- One more than the longest refill period, in nanoseconds. -/
def periodLimit : Nat := UInt64.size

/-- A limiter without clients. The refill period is the reciprocal of the rate in whole
nanoseconds; a period that is too long for the limiter's clock aborts. -/
def make (perSecond : Binary64) (burst : Nat) : Outcome RateError Limiter :=
  if !perSecond.isPositive then .error (.notPositive perSecond)
  else if burst = 0 then .error .noBurst
  else
    match perSecond.reciprocal.toNanos? with
    | none => .error (.tooLow perSecond)
    | some period =>
      if period = 0 then .error (.tooHigh perSecond)
      else if periodLimit ≤ period then .abort
      else .ok { perSecond, burst, period, buckets := Table.empty }

def trackedClients (l : Limiter) : Nat := l.buckets.size

/-- Decides on a request of the client with a key. A denied request changes nothing. -/
def checkKey (now : Nat) (key : Text) (l : Limiter) : Admission × Limiter :=
  let arrival := (l.buckets.get? key).getD now
  if arrival ≤ now + l.period * (l.burst - 1) then
    (.allow, { l with buckets := l.buckets.insert key (max arrival now + l.period) })
  else (.deny, l)

def checkIp (now : Nat) (ip : IPAddress) (l : Limiter) : Admission × Limiter :=
  if ip.isLoopback then (.allow, l) else l.checkKey now ip.toText

/-- Decides on a request from a socket address; its port does not matter. -/
def checkSocket (now : Nat) (address : SocketAddress) (l : Limiter) : Admission × Limiter :=
  l.checkIp now address.ip

/-- The host of `host:port` or `[host]:port`. A host without brackets holds no colon. -/
def hostOf? : Text → Option Text
  | '[' :: rest =>
    match Text.cut ']' rest with
    | (host, some (':' :: _)) => some host
    | _ => none
  | t =>
    match Text.cut ':' t with
    | (host, some port) => if ':' ∈ port then none else some host
    | (_, none) => none

/-- Decides on a request from a client given as text. A host that is no address is a client of its
own, under its text. -/
def check (now : Nat) (client : Text) (l : Limiter) : Except Error Admission × Limiter :=
  match hostOf? client with
  | none => (.error (.badClientAddress client), l)
  | some host =>
    let (admission, l') :=
      match IPAddress.ofText? host with
      | some ip => l.checkIp now ip
      | none => l.checkKey now host
    (.ok admission, l')

def describe (l : Limiter) : Text :=
  "RateLimiter \x7b per_second: ".toList ++ l.perSecond.toFullText ++ ", burst: ".toList ++
    Text.ofNat l.burst ++ ", tracked_clients: ".toList ++ Text.ofNat l.trackedClients ++
    " \x7d".toList

end Limiter

end DeadDrop
