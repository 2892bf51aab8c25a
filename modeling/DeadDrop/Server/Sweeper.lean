import DeadDrop.Log
import DeadDrop.Store.RecordStore

/-!
# The sweeper

A background task that removes expired records once in every period, counted from its start on the
monotonic clock. If time moves on by several periods at once, the sweeps that were missed are caught
up one after the other. A sweep that fails is logged, and the task goes on.
-/

namespace DeadDrop

/-- A running task: when it was started, and its period, both in nanoseconds. -/
structure Sweeper where
  started : Nat
  period : Nat
  deriving DecidableEq, Repr

namespace Sweeper

/-- The number of sweeps due up to a moment. A task without a period never sweeps. -/
def dueUpTo (task : Sweeper) (now : Nat) : Nat := (now - task.started) / task.period

/-- The number of sweeps that fall due while the clock moves on. -/
def dueBetween (task : Sweeper) (before now : Nat) : Nat :=
  task.dueUpTo now - task.dueUpTo before

variable {σ : Type} [Backend σ]

/-- One sweep, with the event that tells of its failure. -/
def sweepOnce (clock : Clock) (store : RecordStore σ) : List LogEvent × RecordStore σ :=
  match RecordStore.purge clock store with
  | (.error e, store') => ([LogEvent.sweepFailed e.message], store')
  | (_, store') => ([], store')

def sweepTimes (clock : Clock) : Nat → RecordStore σ → List LogEvent × RecordStore σ
  | 0, store => ([], store)
  | count + 1, store =>
    let (events, store') := sweepOnce clock store
    let (more, store'') := sweepTimes clock count store'
    (events ++ more, store'')

/-- The sweeps that fall due while the clock moves from one reading to another. -/
def catchUp (task : Sweeper) (before now : Clock) (store : RecordStore σ) :
    List LogEvent × RecordStore σ :=
  sweepTimes now (task.dueBetween before.monotonic now.monotonic) store

end Sweeper

end DeadDrop
