import DeadDrop.Credential
import DeadDrop.Record.Field
import DeadDrop.Store.RecordStore

/-!
# The data service

What clients may do with records: upload, patch and delete with an upload key, download with a
download key. Upload keys are validated and turned into download keys first. Both ways of writing
stamp the record with the current time.
-/

namespace DeadDrop.Service

variable {σ : Type}

/-- An upload key and its download key, both without tags. -/
structure KeyPair where
  uploadKey : Text
  downloadKey : Text
  deriving DecidableEq, Repr

structure Written where
  downloadKey : Text
  record : Record

def downloadKeyOf (uploadKey : Text) : Except Error Text :=
  match Credential.validate uploadKey with
  | .error e => .error (.invalidCredential e.message)
  | .ok () =>
    match Credential.derive uploadKey with
    | .error e => .error (.derivation e.message)
    | .ok key => .ok key

def keyPairOf (random : Bytes) : Except Error KeyPair :=
  let uploadKey := Credential.uploadKeyOf random
  match Credential.derive uploadKey with
  | .error e => .error (.derivation e.message)
  | .ok downloadKey => .ok { uploadKey, downloadKey }

/-- The current moment, without which nothing can be stamped. -/
def now (clock : Clock) : Action σ Error Moment :=
  match clock.moment? with
  | some moment => pure moment
  | none => .done .abort

variable [Backend σ]

/-- Replaces the record by the given fields and the time. -/
def upload (clock : Clock) (uploadKey : Text) (params : Params) :
    Action (RecordStore σ) Error Written := do
  let key ← .done (.ofExcept (downloadKeyOf uploadKey))
  let record := (Record.ofParams params).stamp (← now clock)
  RecordStore.put clock key record
  pure { downloadKey := key, record }

/-- Merges the given fields into the record at a path, starting from the empty record if there is
none, and stamps the time. -/
def patch (clock : Clock) (uploadKey path : Text) (params : Params) :
    Action (RecordStore σ) Error Written := do
  let key ← .done (.ofExcept (downloadKeyOf uploadKey))
  let existing ← RecordStore.getOrEmpty clock key
  let record := (existing.merged path params).stamp (← now clock)
  RecordStore.put clock key record
  pure { downloadKey := key, record }

def downloadJson (clock : Clock) (downloadKey : Text) : Action (RecordStore σ) Error Bytes :=
  RecordStore.getBytes clock (Credential.normalizeDownload downloadKey)

def downloadField (clock : Clock) (downloadKey path : Text) :
    Action (RecordStore σ) Error Value := do
  let record ← RecordStore.get clock (Credential.normalizeDownload downloadKey)
  match record.field path with
  | .ok value => pure value
  | .error .missing => .fail (.fieldNotFound path)
  | .error .throughLeaf => .fail (.invalidPath path)

/-- Removes the record, if there is one, and gives its download key. -/
def delete (clock : Clock) (uploadKey : Text) : Action (RecordStore σ) Error Text := do
  let key ← .done (.ofExcept (downloadKeyOf uploadKey))
  RecordStore.delete clock key
  pure key

end DeadDrop.Service
