import DeadDrop.Binary64.Basic
import DeadDrop.Text

/-!
# Log events

What a server tells its operator. An event has a level, a target that names its source, a message
and named values. Audit events are those of the target `audit`.
-/

namespace DeadDrop

inductive LogLevel where
  | info
  | warn
  | error
  deriving DecidableEq, Repr

inductive LogValue where
  | text (t : Text)
  | number (n : Nat)
  | float (x : Binary64)
  | flag (b : Bool)
  deriving DecidableEq, Repr

structure LogEvent where
  level : LogLevel
  target : Text
  message : Text
  fields : List (Text × LogValue)
  deriving DecidableEq, Repr

namespace LogEvent

/-- The target of audit events. -/
def auditTarget : Text := "audit".toList

/-- The target of the HTTP interface. -/
def httpTarget : Text := "ephemeral_store::http".toList

/-- The target of the data service. -/
def serviceTarget : Text := "ephemeral_store::services::data".toList

/-- The target of the server's start and its background work. -/
def serverTarget : Text := "ephemeral_store::server".toList

def sweepFailed (reason : Text) : LogEvent where
  level := .warn
  target := serverTarget
  message := "Failed to purge expired records".toList
  fields := [("error".toList, .text reason)]

end LogEvent

end DeadDrop
