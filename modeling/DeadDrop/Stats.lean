import DeadDrop.Assoc
import DeadDrop.Time.Moment

/-!
# Statistics

Counts of what a server has done. Lifetime counts only grow. Downloads, uploads and HTTP errors are
also counted by the hour in which they happened; a snapshot sums the hours that begin within the
last 24 hours and drops the others. Denied requests are counted per client, in the order in which
the clients were first denied.
-/

namespace DeadDrop

/-- The events that are counted by the hour. -/
inductive StatsEvent where
  | download
  | upload
  | httpError
  deriving DecidableEq, Repr

structure EventCounts where
  downloads : Nat
  uploads : Nat
  httpErrors : Nat
  deriving DecidableEq, Repr

namespace EventCounts

def zero : EventCounts := ⟨0, 0, 0⟩

def count (c : EventCounts) : StatsEvent → EventCounts
  | .download => { c with downloads := c.downloads + 1 }
  | .upload => { c with uploads := c.uploads + 1 }
  | .httpError => { c with httpErrors := c.httpErrors + 1 }

def add (c d : EventCounts) : EventCounts :=
  ⟨c.downloads + d.downloads, c.uploads + d.uploads, c.httpErrors + d.httpErrors⟩

def of (c : EventCounts) : StatsEvent → Nat
  | .download => c.downloads
  | .upload => c.uploads
  | .httpError => c.httpErrors

end EventCounts

structure Stats where
  startTime : Moment
  lifetime : EventCounts
  rateLimitHits : Nat
  rateLimitedClients : List (Text × Nat)
  hourly : Table Int EventCounts

structure StatsSnapshot where
  lifetime : EventCounts
  lastDay : EventCounts
  rateLimitHits : Nat
  rateLimitedClients : List (Text × Nat)
  startTime : Moment
  deriving DecidableEq, Repr

namespace Stats

/-- Seconds in an hour. -/
def hourSeconds : Int := 3600

/-- Nanoseconds in the window of a snapshot: 24 hours. -/
def windowNanos : Int := 24 * 3600 * 1000000000

def started (startTime : Moment) : Stats where
  startTime
  lifetime := .zero
  rateLimitHits := 0
  rateLimitedClients := []
  hourly := Table.empty

/-- The hour of a moment, counted from 1970. -/
def hourOf (moment : Moment) : Int := moment.seconds / hourSeconds

/-- Nanoseconds from 1970 to a moment. -/
def nanosOf (moment : Moment) : Int := moment.seconds * Moment.billion + moment.nanos

def record (event : StatsEvent) (moment : Moment) (s : Stats) : Stats :=
  let hour := hourOf moment
  let counts := (s.hourly.get? hour).getD .zero
  { s with
    lifetime := s.lifetime.count event
    hourly := s.hourly.insert hour (counts.count event) }

/-- One more hit of a client. A client without hits so far comes last. -/
def countHit (client : Text) : List (Text × Nat) → List (Text × Nat)
  | [] => [(client, 1)]
  | (name, hits) :: rest =>
    if name = client then (name, hits + 1) :: rest else (name, hits) :: countHit client rest

def recordRateLimitHit (client : Text) (s : Stats) : Stats :=
  { s with
    rateLimitHits := s.rateLimitHits + 1
    rateLimitedClients := countHit client s.rateLimitedClients }

/-- Whether an hour begins within the window that ends at a moment. -/
def inWindow (moment : Moment) (hour : Int) : Bool :=
  decide (nanosOf moment - windowNanos ≤ hour * hourSeconds * Moment.billion)

/-- Shows the counts at a moment, and drops the hours that the window has left behind. -/
def snapshot (moment : Moment) (s : Stats) : StatsSnapshot × Stats :=
  let hourly := s.hourly.filter fun hour _ => inWindow moment hour
  let lastDay := hourly.entries.foldl (fun sum entry => sum.add entry.2) EventCounts.zero
  ({ lifetime := s.lifetime
     lastDay
     rateLimitHits := s.rateLimitHits
     rateLimitedClients := s.rateLimitedClients
     startTime := s.startTime },
    { s with hourly })

/-- Nanoseconds since the start; none if the clock has gone back behind it. -/
def uptime (moment : Moment) (s : Stats) : Nat := (nanosOf moment - nanosOf s.startTime).toNat

end Stats

end DeadDrop
