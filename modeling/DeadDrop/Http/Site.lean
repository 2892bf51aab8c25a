import DeadDrop.Http.Failure
import DeadDrop.Limiter
import DeadDrop.Service
import DeadDrop.Stats

/-!
# The state of a site

Everything that outlives a request: the stored records, what has been counted, the buckets of the
rate limiter, and the log. The log holds the events that nobody has taken out yet, oldest first.
-/

namespace DeadDrop.Http

structure Site (σ : Type) where
  store : RecordStore σ
  stats : Stats
  limiter : Limiter
  maxRequestSize : Nat
  log : List LogEvent

namespace Site

variable {σ ε α : Type}

/-- A site on which nothing has happened since a moment. -/
def started (store : RecordStore σ) (limiter : Limiter) (maxRequestSize : Nat) (moment : Moment) :
    Site σ :=
  { store, stats := .started moment, limiter, maxRequestSize, log := [] }

def onStore (action : Action (RecordStore σ) Error α) : Action (Site σ) Failure α := fun s =>
  ((action s.store).1.mapError .service, { s with store := (action s.store).2 })

/-- Changes the statistics at the current moment; without one there is no answer. -/
def onStats (clock : Clock) (change : Moment → Stats → α × Stats) : Action (Site σ) ε α := fun s =>
  match clock.moment? with
  | some moment => (.ok (change moment s.stats).1, { s with stats := (change moment s.stats).2 })
  | none => (.abort, s)

def count (clock : Clock) (event : StatsEvent) : Action (Site σ) ε Unit :=
  onStats clock fun moment stats => ((), stats.record event moment)

def emit (events : List LogEvent) (s : Site σ) : Site σ := { s with log := s.log ++ events }

def respond (response : Response) (events : List LogEvent) : Action (Site σ) Empty Response :=
  fun s => (.ok response, s.emit events)

def answering (action : Action (Site σ) Failure Response) : Action (Site σ) Empty Response :=
  fun s =>
    match action s with
    | (.ok response, s') => (.ok response, s')
    | (.error failure, s') => respond failure.response failure.events s'
    | (.abort, s') => (.abort, s')

end Site

end DeadDrop.Http
