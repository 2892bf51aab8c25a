import DeadDrop.Http.Handler

/-!
# Layers

What every request passes through, from the outside: its error is counted, it is opened to other
origins, its declared size is checked, its client is checked, and then its route is looked up. A
request that a layer refuses does not reach the layers inside of it, and so it costs nothing there.
-/

namespace DeadDrop.Http

variable {σ : Type}

/-- What answers requests. It may have no answer, but it never fails. -/
abbrev Answerer (σ : Type) : Type := Request → Action (Site σ) Empty Response

/-- Answers requests by their route: only a `GET` or `HEAD` is let in. -/
def dispatch [Backend σ] (clock : Clock) (random : Bytes) : Answerer σ := fun request =>
  match Route.ofPath? request.uri.path with
  | none => pure (.plain 404 "404 page not found\n".toList)
  | some route =>
    if request.isRead then Site.answering (onCaptured clock random request route)
    else pure (.empty 405)

/-- Refuses clients that have used up their allowance. A request from nowhere is let through. -/
def limitRate (clock : Clock) (inner : Answerer σ) : Answerer σ := fun request =>
  match request.peer with
  | none => inner request
  | some peer => fun s =>
    let (admission, limiter) := s.limiter.checkSocket clock.monotonic peer
    let s := { s with limiter }
    match admission with
    | .allow => inner request s
    | .deny =>
      let client := peer.ip.toText
      Site.respond (errorResponse (.rateLimited client)) [.rateLimited client request.uri.path]
        { s with stats := s.stats.recordRateLimitHit client }

/-- Reads a declared size: digits, after a plus sign or not, for a number of at most 64 bits. -/
def declaredSize? (t : Text) : Option Nat :=
  match Text.toNat? (t.withoutStart ['+']) with
  | some n => if n < UInt64.size then some n else none
  | none => none

def Request.size? (request : Request) : Option Nat :=
  (request.headerText? "content-length".toList).bind declaredSize?

/-- Refuses requests that declare too many bytes. A request without a readable size is let
through. -/
def limitSize (inner : Answerer σ) : Answerer σ := fun request s =>
  match request.size? with
  | none => inner request s
  | some size =>
    if s.maxRequestSize < size then
      Site.respond (errorResponse (.requestTooLarge size s.maxRequestSize))
        [.requestTooLarge request.peer request.uri.path size s.maxRequestSize] s
    else inner request s

def sharingHeaders : List (Text × Text) := [
  ("access-control-allow-origin".toList, ['*']),
  ("vary".toList,
    "origin, access-control-request-method, access-control-request-headers".toList)]

/-- The headers that tell what requests from other origins may hold. -/
def preflightHeaders : List (Text × Text) := [
  ("access-control-allow-methods".toList, "GET,POST,OPTIONS".toList),
  ("access-control-allow-headers".toList, "content-type,authorization".toList)]

/-- Opens every response to other origins, and answers what they ask beforehand. -/
def shareAcrossOrigins (inner : Answerer σ) : Answerer σ := fun request =>
  match request.method with
  | .options => pure ((Response.empty 200).withHeaders (preflightHeaders ++ sharingHeaders))
  | _ => do pure ((← inner request).withHeaders sharingHeaders)

def countErrors (clock : Clock) (inner : Answerer σ) : Answerer σ := fun request => do
  let response ← inner request
  if response.isError then Site.count clock .httpError
  pure response

/-- The answerer inside of all layers, and the layers around it. -/
def layered [Backend σ] (clock : Clock) (random : Bytes) : Answerer σ :=
  countErrors clock (shareAcrossOrigins (limitSize (limitRate clock (dispatch clock random))))

/-- What every response gets before it is sent: the methods that a known route takes, if another one
was used, and the length of the body. The response to `HEAD` has no body, but keeps its length. -/
def finish (request : Request) (response : Response) : Response :=
  let allow : List (Text × Text) :=
    if (Route.ofPath? request.uri.path).isSome && !request.isRead then
      [("allow".toList, "GET,HEAD".toList)]
    else []
  let sized := response.withHeaders
    (allow ++ [("content-length".toList, Text.ofNat response.body.length)])
  if request.method = .head then { sized with body := [] } else sized

def answer [Backend σ] (clock : Clock) (random : Bytes) : Answerer σ := fun request => do
  pure (finish request (← layered clock random request))

end DeadDrop.Http
