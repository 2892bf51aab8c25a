import DeadDrop.Assoc
import DeadDrop.Store.Backend

/-!
# The memory backend

Entries live in process memory and expire on the monotonic clock, to the nanosecond. An entry is
over from the very moment of its expiry on. A write whose expiry lies beyond what the clock can
represent aborts and keeps nothing.
-/

namespace DeadDrop

/-- A held value and the monotonic time of its expiry, if it has one. -/
structure MemoryEntry where
  value : Bytes
  expiry : Option Nat
  deriving DecidableEq, Repr

def MemoryEntry.isOver (now : Nat) (entry : MemoryEntry) : Bool :=
  match entry.expiry with
  | some expiry => decide (expiry ≤ now)
  | none => false

structure Memory where
  entries : Table Text MemoryEntry

namespace Memory

def empty : Memory := ⟨Table.empty⟩

/-- The number of entries held, those whose time is over included. -/
def size (m : Memory) : Nat := m.entries.size

/-- One more than the last nanosecond of the monotonic clock: its seconds have 63 bits. -/
def clockLimit : Nat := UInt64.size / 2 * Moment.billion

/-- The live value under a key; an entry whose time is over is removed on the way. -/
def read (clock : Clock) (key : Text) : Action Memory StorageFault (Option Bytes) := fun m =>
  match m.entries.get? key with
  | none => (.ok none, m)
  | some entry =>
    if entry.isOver clock.monotonic then (.ok none, ⟨m.entries.erase key⟩)
    else (.ok (some entry.value), m)

/-- Keeps a value, in place of any entry held under the key. -/
def write (clock : Clock) (key : Text) (value : Bytes) (ttl : Option Nat) :
    Action Memory StorageFault Unit := fun m =>
  match ttl with
  | none => (.ok (), ⟨m.entries.insert key ⟨value, none⟩⟩)
  | some ttl =>
    let expiry := clock.monotonic + ttl
    if expiry < clockLimit then (.ok (), ⟨m.entries.insert key ⟨value, some expiry⟩⟩)
    else (.abort, m)

/-- Removes a key; an entry whose time is over counts as held. -/
def remove (key : Text) : Action Memory StorageFault Bool := fun m =>
  (.ok (m.entries.contains key), ⟨m.entries.erase key⟩)

def sweep (clock : Clock) : Action Memory StorageFault Nat := fun m =>
  let kept := m.entries.filter fun _ entry => !entry.isOver clock.monotonic
  (.ok (m.entries.size - kept.size), ⟨kept⟩)

instance : Backend Memory where
  read := read
  write := write
  remove _ := remove
  sweep := sweep

end Memory

end DeadDrop
