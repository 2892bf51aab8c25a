import DeadDrop.Error
import DeadDrop.Record.Json
import DeadDrop.Store.Backend

/-!
# The record store

Records under download keys, on any backend. Every write keeps its record for the retention time
from the moment of the write, so a record lives as long as it keeps being written.
-/

namespace DeadDrop

/-- A backend and the retention time of every write, in nanoseconds. -/
structure RecordStore (σ : Type) where
  backend : σ
  retention : Nat

namespace RecordStore

variable {σ α : Type}

/-- Runs a call on the backend; a fault is a storage error. -/
def onBackend (action : Action σ StorageFault α) : Action (RecordStore σ) Error α := fun s =>
  ((action s.backend).1.mapError fun fault => .storage fault.message,
    { s with backend := (action s.backend).2 })

variable [Backend σ]

def put (clock : Clock) (key : Text) (record : Record) : Action (RecordStore σ) Error Unit :=
  fun s => onBackend (Backend.write clock key record.toBytes (some s.retention)) s

def getBytes (clock : Clock) (key : Text) : Action (RecordStore σ) Error Bytes := do
  match ← onBackend (Backend.read clock key) with
  | some b => pure b
  | none => .fail .recordNotFound

/-- The fault of stored bytes that are no record. Its wording quotes them. -/
def undecodable (b : Bytes) : Error :=
  .decode ("not an object of strings and objects: ".toList ++ Text.ofUtf8Lossy b)

def get (clock : Clock) (key : Text) : Action (RecordStore σ) Error Record := do
  let b ← getBytes clock key
  match Record.ofBytes? b with
  | some record => pure record
  | none => .fail (undecodable b)

def getOrEmpty (clock : Clock) (key : Text) : Action (RecordStore σ) Error Record := fun s =>
  match get clock key s with
  | (.error (.notFound _), s') => (.ok .empty, s')
  | result => result

def delete (clock : Clock) (key : Text) : Action (RecordStore σ) Error Unit := do
  let _ ← onBackend (Backend.remove clock key)
  pure ()

/-- Removes the records whose time is over, and tells how many. -/
def purge (clock : Clock) : Action (RecordStore σ) Error Nat := onBackend (Backend.sweep clock)

end RecordStore

end DeadDrop
