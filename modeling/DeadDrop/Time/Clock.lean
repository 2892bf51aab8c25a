import DeadDrop.Time.Moment

/-!
# Clocks

What the library knows of time are the readings of two clocks. The wall clock tells Unix time and
may be set; the monotonic clock counts from an arbitrary start and only moves forward.
-/

namespace DeadDrop

/-- One reading of both clocks, in nanoseconds. -/
structure Clock where
  wall : Int
  monotonic : Nat
  deriving DecidableEq, Repr

namespace Clock

/-- The moment that the wall clock shows. Before 1970, and where the calendar ends, it shows
none. -/
def moment? (clock : Clock) : Option Moment :=
  let moment := Moment.ofUnixNanos clock.wall
  if 0 ≤ clock.wall ∧ moment.IsRepresentable then some moment else none

def advance (clock : Clock) (span : Nat) : Clock :=
  { wall := clock.wall + span, monotonic := clock.monotonic + span }

end Clock

end DeadDrop
