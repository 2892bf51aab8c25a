import DeadDrop.Proofs.Action
import DeadDrop.Proofs.Transcript
import DeadDrop.Store.Backend

/-!
# Calls on a backend

The four operations of a backend as data, so that a run of a backend is a list of them.
-/

namespace DeadDrop.Backend

inductive Call where
  | read (key : Text)
  | write (key : Text) (value : Bytes) (ttl : Option Nat)
  | remove (key : Text)
  | sweep
  deriving DecidableEq, Repr

inductive Reply where
  | value (value : Option Bytes)
  | written
  | removed (held : Bool)
  | swept (count : Nat)
  deriving DecidableEq, Repr

/-- The time to live that a call asks for; zero if it asks for none. -/
def Call.span : Call → Nat
  | .write _ _ (some ttl) => ttl
  | _ => 0

variable {σ τ : Type} [Backend σ] [Backend τ]

def Call.perform (clock : Clock) : Call → Action σ StorageFault Reply
  | .read key => do return .value (← Backend.read clock key)
  | .write key value ttl => do
    let _ ← Backend.write clock key value ttl
    return .written
  | .remove key => do return .removed (← Backend.remove clock key)
  | .sweep => do return .swept (← Backend.sweep clock)

def calls (run : List (Timed Call)) (s : σ) : List (Timed Call × Outcome StorageFault Reply) :=
  transcript (fun t => t.call.perform t.clock) run s

end DeadDrop.Backend
