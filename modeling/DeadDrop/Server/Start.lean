import DeadDrop.Config
import DeadDrop.Disk
import DeadDrop.Http.Site
import DeadDrop.Store.Faulty
import DeadDrop.Store.Image

/-!
# Starting a site

From a configuration to the state that requests work on: the retention time is read, the store is
opened, and the rate limiter is made, in this order. What has been opened stays opened if a later
step fails. Validation is not part of it, so a configuration that has not been validated may start,
or fail here.
-/

namespace DeadDrop

inductive StartError where
  | retention (e : Config.RetentionError)
  /-- The directory of the store's file cannot be made. -/
  | directory (file path : Text)
  /-- The store's file cannot be opened, or is no store. -/
  | database (file : Text)
  | rate (e : RateError)
  deriving DecidableEq, Repr

namespace StartError

/-- What failed, in the words of whoever asked for it. -/
def headline : StartError → Text
  | .retention e => "Invalid persist_for value '".toList ++ e.text ++ ['\'']
  | .directory file _ | .database file => "Failed to open store at ".toList ++ file
  | .rate _ => "Invalid rate limit configuration".toList

def cause : StartError → Text
  | .retention e => e.cause.message
  | .directory _ path => "Failed to create store directory: ".toList ++ path
  | .database file => "Failed to open store database: ".toList ++ file
  | .rate e => (Error.config e.message).message

def message (e : StartError) : Text := e.headline ++ ": ".toList ++ e.cause

end StartError

namespace Server

def directoryOf (c : Config) : Text := Path.trimEnd c.storePath

/-- Opens the rows in the store's file, after making its directory. A file that is missing is made;
one that holds something else is left alone. -/
def openRows (c : Config) : Action Disk StartError Rows := fun disk =>
  match disk.makeDirectories? (directoryOf c) with
  | none => (.error (.directory c.storeFile (directoryOf c)), disk)
  | some disk =>
    match disk.find? c.storeFile with
    | none =>
      match disk.write? c.storeFile Rows.empty.toImage with
      | none => (.error (.database c.storeFile), disk)
      | some disk => (.ok .empty, disk)
    | some .directory => (.error (.database c.storeFile), disk)
    | some (.file content) =>
      match Rows.ofImage? content with
      | none => (.error (.database c.storeFile), disk)
      | some rows => (.ok rows, disk)

def openStorage (c : Config) : Action Disk StartError Storage := do
  if c.inMemory then pure (.memory .empty)
  else
    let rows ← openRows c
    pure (.rows rows)

def start (clock : Clock) (c : Config) : Action Disk StartError (Http.Site Storage) := do
  let seconds ← .done ((Outcome.ofExcept c.retention).mapError .retention)
  let backend ← openStorage c
  let limiter ← .done ((Limiter.make c.perSecond c.burst).mapError .rate)
  match clock.moment? with
  | none => .done .abort
  | some moment =>
    let store : RecordStore Storage := { backend, retention := seconds * Moment.billion }
    pure (.started store limiter c.maxRequestSize moment)

end Server

end DeadDrop
