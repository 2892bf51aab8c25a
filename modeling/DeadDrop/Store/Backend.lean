import DeadDrop.Action
import DeadDrop.Text
import DeadDrop.Time.Clock

/-!
# Storage backends

A backend keeps byte strings under keys, each for a time to live or for good. An entry whose time
is over is no longer read; it is held until a read of its key or a sweep removes it.
-/

namespace DeadDrop

inductive StorageFault where
  /-- A time to live has more milliseconds than 64 bits hold. -/
  | ttlOutOfRange
  /-- The wall clock shows a time before 1970. -/
  | clockBeforeEpoch
  /-- The wall clock shows more milliseconds than 64 bits hold. -/
  | clockOutOfRange
  /-- The row of a key is too short to have a header. -/
  | shortRow (key : Text) (length : Nat)
  /-- The engine refuses for a reason of its own. -/
  | refused (reason : Text)
  deriving DecidableEq, Repr

namespace StorageFault

/-- What a conversion to 64 bits says about a number that is too large. -/
def tooLarge : Text := "number too large to fit in target type".toList

/-- The wording of a storage fault, outermost context first. -/
def message : StorageFault → Text
  | .ttlOutOfRange => "TTL out of range: ".toList ++ tooLarge
  | .clockBeforeEpoch =>
    "System clock is before the Unix epoch: second time provided was later than self".toList
  | .clockOutOfRange => "System clock out of range: ".toList ++ tooLarge
  | .shortRow key length =>
    "Failed to decode entry for key '".toList ++ key ++ "': entry too short: ".toList ++
      Text.ofNat length ++ " bytes".toList
  | .refused reason => reason

end StorageFault

/-- The operations of a storage engine. Times to live are in nanoseconds. -/
class Backend (σ : Type) where
  /-- The value under a key, unless its time is over. -/
  read (clock : Clock) (key : Text) : Action σ StorageFault (Option Bytes)
  /-- Keeps a value under a key, for good or for a time to live. -/
  write (clock : Clock) (key : Text) (value : Bytes) (ttl : Option Nat) :
    Action σ StorageFault Unit
  /-- Removes a key, and tells whether an entry was held under it. -/
  remove (clock : Clock) (key : Text) : Action σ StorageFault Bool
  /-- Removes every entry whose time is over, and tells how many. -/
  sweep (clock : Clock) : Action σ StorageFault Nat

end DeadDrop
