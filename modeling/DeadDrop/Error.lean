import DeadDrop.Text

/-!
# Errors

Every way in which a request on records can fail. Errors that a client causes carry a wording that
the client may see; the others are faults of the server, and their wording is for its log.
-/

namespace DeadDrop

inductive Error where
  /-- The upload key is no key. -/
  | invalidCredential (reason : Text)
  /-- A key that had been accepted gave no download key. -/
  | derivation (reason : Text)
  /-- There is no record, or no such field in it. -/
  | notFound (what : Text)
  /-- A path goes on behind a leaf. -/
  | invalidPath (path : Text)
  /-- A record cannot be written as JSON. -/
  | encode (reason : Text)
  /-- Stored bytes are no record. -/
  | decode (reason : Text)
  /-- A client has used up its allowance. -/
  | rateLimited (client : Text)
  /-- A client's address has no host part. -/
  | badClientAddress (address : Text)
  /-- A request declares more bytes than are allowed. -/
  | requestTooLarge (size max : Nat)
  /-- The storage engine fails. -/
  | storage (reason : Text)
  /-- The configuration is no good. -/
  | config (reason : Text)
  deriving DecidableEq, Repr

namespace Error

def recordNotFound : Error := .notFound "invalid download key or data not found".toList

def fieldNotFound (path : Text) : Error :=
  .notFound ("parameter '".toList ++ path ++ "' not found".toList)

def message : Error → Text
  | .invalidCredential reason => reason
  | .derivation reason => "error deriving download key: ".toList ++ reason
  | .notFound what => what
  | .invalidPath path => "invalid parameter path: '".toList ++ path ++ ['\'']
  | .encode reason => "error encoding data to JSON: ".toList ++ reason
  | .decode reason => "error decoding stored JSON: ".toList ++ reason
  | .rateLimited client => "too many requests from ".toList ++ client
  | .badClientAddress address => "failed to parse client address '".toList ++ address ++ ['\'']
  | .requestTooLarge size max =>
    "request size ".toList ++ Text.ofNat size ++ " exceeds maximum of ".toList ++
      Text.ofNat max ++ " bytes".toList
  | .storage reason => "storage failure: ".toList ++ reason
  | .config reason => "configuration error: ".toList ++ reason

def status : Error → Nat
  | .invalidCredential _ | .invalidPath _ => 400
  | .notFound _ => 404
  | .requestTooLarge _ _ => 413
  | .rateLimited _ => 429
  | .derivation _ | .encode _ | .decode _ | .badClientAddress _ | .storage _ | .config _ => 500

/-- Whether the client caused the error and may see its wording. -/
def isClientError (e : Error) : Bool := decide (e.status < 500)

end Error

end DeadDrop
