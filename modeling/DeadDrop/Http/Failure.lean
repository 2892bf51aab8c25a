import DeadDrop.Error
import DeadDrop.Http.Message
import DeadDrop.Log

/-!
# Failures

What becomes of a request that fails: the response that the client gets, and the events that the
operator gets. A client reads about its own errors only. A refused key, a refused size and a refused
client are audited; a fault of the server is logged with its wording, of which the response says
nothing.
-/

namespace DeadDrop

namespace LogEvent

/-- The audit event of a client that has used up its allowance. -/
def rateLimited (client path : Text) : LogEvent where
  level := .warn
  target := auditTarget
  message := "Rate limit exceeded".toList
  fields := [("event_type".toList, .text "rate_limited".toList), ("client".toList, .text client),
    ("path".toList, .text path)]

/-- The audit event of a request that declares too many bytes. -/
def requestTooLarge (peer : Option SocketAddress) (path : Text) (size max : Nat) : LogEvent where
  level := .warn
  target := auditTarget
  message := "Request size is too large".toList
  fields := [("event_type".toList, .text "request_too_large".toList),
    ("remote_addr".toList, .text (match peer with
      | some address => "Some(".toList ++ address.toText ++ [')']
      | none => "None".toList)),
    ("path".toList, .text path), ("size".toList, .number size), ("max".toList, .number max)]

def invalidCredential (reason : Text) : LogEvent where
  level := .info
  target := auditTarget
  message := "Rejected malformed upload key".toList
  fields := [("event_type".toList, .text "invalid_credential".toList),
    ("reason".toList, .text reason)]

/-- The event of an accepted key that gave no download key. -/
def derivationFailed (reason : Text) : LogEvent where
  level := .error
  target := serviceTarget
  message := "Failed to derive download key".toList
  fields := [("error".toList, .text reason)]

def requestFailed (e : Error) : LogEvent where
  level := .error
  target := httpTarget
  message := "Request failed".toList
  fields := [("error".toList, .text e.message)]

end LogEvent

namespace Http

def notice (e : Error) : Text :=
  match e with
  | .rateLimited _ => "Too Many Requests".toList
  | .requestTooLarge _ _ => "Request size is too large".toList
  | e => if e.isClientError then e.message else "Internal Server Error".toList

def errorResponse (e : Error) : Response := .plain e.status (notice e ++ ['\n'])

/-- The events that an error gives rise to when it is turned into a response. -/
def errorEvents (e : Error) : List LogEvent :=
  match e with
  | .invalidCredential reason => [.invalidCredential reason]
  | e => if e.isClientError then [] else [.requestFailed e]

inductive Failure where
  /-- The service refuses or fails. -/
  | service (e : Error)
  /-- A field that is asked for in decoded form is no base64 text. -/
  | notBase64
  /-- A part of the path does not spell UTF-8. -/
  | illFormedCapture (name : Text)
  deriving DecidableEq, Repr

namespace Failure

def response : Failure → Response
  | .service e => errorResponse e
  | .notBase64 => .plain 500 "Error decoding base64url\n".toList
  | .illFormedCapture name =>
    .plain 400 ("Invalid URL: Invalid UTF-8 in \x60".toList ++ name ++ ['\x60'])

/-- A failed derivation is logged by the service, and once more as the failure of the request. -/
def events : Failure → List LogEvent
  | .service (.derivation reason) =>
    .derivationFailed reason :: errorEvents (.derivation reason)
  | .service e => errorEvents e
  | .notBase64 | .illFormedCapture _ => []

end Failure

end Http

end DeadDrop
