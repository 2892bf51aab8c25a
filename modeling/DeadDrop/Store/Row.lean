import DeadDrop.Store.Backend

/-!
# Rows

On disk, a value is a row: its expiry in Unix milliseconds as eight big-endian bytes, and then the
value itself. The expiry zero means that the value is kept for good.
-/

namespace DeadDrop

/-- A stored value and its expiry in Unix milliseconds, if it has one. -/
structure Row where
  value : Bytes
  expiry : Option Nat
  deriving DecidableEq, Repr

namespace Row

/-- The number of bytes in front of the value. -/
def headerLength : Nat := 8

/-- One more than the largest number of milliseconds. -/
def millisLimit : Nat := UInt64.size

/-- Nanoseconds in a millisecond. -/
def million : Nat := 1000000

def encode (row : Row) : Bytes := Bytes.ofNatBE headerLength (row.expiry.getD 0) ++ row.value

/-- Reads the bytes of a row; fewer bytes than a header are none. -/
def decode? (b : Bytes) : Option Row :=
  if b.length < headerLength then none
  else
    let expiry := Bytes.toNatBE (b.take headerLength)
    some { value := b.drop headerLength, expiry := if expiry = 0 then none else some expiry }

/-- The wall clock's Unix time in whole milliseconds. -/
def millisOf (clock : Clock) : Except StorageFault Nat :=
  if clock.wall < 0 then .error .clockBeforeEpoch
  else
    let millis := clock.wall.toNat / million
    if millis < millisLimit then .ok millis else .error .clockOutOfRange

def forGood (value : Bytes) : Row := { value, expiry := none }

/-- The row that expires after a time to live. The time is cut to whole milliseconds, and an expiry
past the last millisecond becomes the last one. -/
def withTtl (clock : Clock) (value : Bytes) (ttl : Nat) : Except StorageFault Row :=
  if ttl / million < millisLimit then
    match millisOf clock with
    | .error fault => .error fault
    | .ok now => .ok { value, expiry := some (min (now + ttl / million) (millisLimit - 1)) }
  else .error .ttlOutOfRange

/-- Whether a row's time is over, at a Unix time in milliseconds. -/
def isOver (now : Nat) (row : Row) : Bool :=
  match row.expiry with
  | some expiry => decide (expiry ≤ now)
  | none => false

end Row

end DeadDrop
