import DeadDrop.Text.Percent
import DeadDrop.Text.Utf8

/-!
# Routes

The paths that the server knows. A path is matched piece by piece between its slashes, as it was
sent. Fixed words go before keys, so the routes are listed with their words first and the first
match counts. What a route captures is decoded after the match: percent escapes, then UTF-8.
-/

namespace DeadDrop.Http

inductive Route where
  | keyPair
  | health
  | stats
  | upload (key : Text)
  | patch (key path : Text)
  | downloadJson (key : Text)
  | downloadPlain (key field : Text)
  | downloadDecoded (key field : Text)
  | delete (key : Text)
  deriving DecidableEq, Repr

/-- A piece of a pattern: a fixed word, a key, or all that is left. -/
inductive Piece where
  | word (w : Text)
  | key
  | rest
  deriving DecidableEq, Repr

structure Captures where
  key : Text := []
  rest : Text := []
  deriving DecidableEq, Repr

/-- Matches pieces of a path against a pattern. Of a key and of what is left, neither may be empty
at the end of the path; in front of a slash an empty key is let through. -/
def matchPieces : List Piece → List Text → Captures → Option Captures
  | [], [], captures => some captures
  | [.key], [piece], captures => if piece.isEmpty then none else some { captures with key := piece }
  | [.rest], pieces, captures =>
    let rest := Text.join ['/'] pieces
    if rest.isEmpty then none else some { captures with rest }
  | .word w :: pattern, piece :: pieces, captures =>
    if piece = w then matchPieces pattern pieces captures else none
  | .key :: pattern, piece :: pieces, captures =>
    matchPieces pattern pieces { captures with key := piece }
  | _, _, _ => none

structure Pattern where
  pieces : List Piece
  route : Captures → Route

def word (w : String) : Piece := .word w.toList

/-- The patterns of all routes. An empty word at the end stands for a slash. -/
def patterns : List Pattern := [
  ⟨[word "kp"], fun _ => .keyPair⟩,
  ⟨[word "health"], fun _ => .health⟩,
  ⟨[word "api", word "stats"], fun _ => .stats⟩,
  ⟨[word "u", .key], fun c => .upload c.key⟩,
  ⟨[word "u", .key, word ""], fun c => .upload c.key⟩,
  ⟨[word "patch", .key], fun c => .patch c.key []⟩,
  ⟨[word "patch", .key, word ""], fun c => .patch c.key []⟩,
  ⟨[word "patch", .key, .rest], fun c => .patch c.key c.rest⟩,
  ⟨[word "d", .key, word "json"], fun c => .downloadJson c.key⟩,
  ⟨[word "d", .key, word "plain", .rest], fun c => .downloadPlain c.key c.rest⟩,
  ⟨[word "d", .key, word "plain-from-base64url", .rest], fun c => .downloadDecoded c.key c.rest⟩,
  ⟨[word "delete", .key], fun c => .delete c.key⟩,
  ⟨[word "delete", .key, word ""], fun c => .delete c.key⟩,
  ⟨[.key, word ""], fun c => .upload c.key⟩,
  ⟨[.key, word "json"], fun c => .downloadJson c.key⟩,
  ⟨[.key, word "plain", .rest], fun c => .downloadPlain c.key c.rest⟩]

namespace Route

/-- The route of a path, with its captures as they were sent. -/
def ofPath? : Text → Option Route
  | '/' :: path =>
    patterns.findSome? fun pattern =>
      (matchPieces pattern.pieces (Text.splitOn '/' path) {}).map pattern.route
  | _ => none

def decodeCapture (name : String) (capture : Text) : Except Text Text :=
  match Text.ofUtf8? (Percent.decode (Text.toUtf8 capture)) with
  | some t => .ok t
  | none => .error name.toList

/-- The field or path of a capture: it has no slash at either end. -/
def trimSlashes (t : Text) : Text := t.trim fun c => c = '/'

/-- A route with its captures decoded, or the name of the first capture that spells no text. -/
def decode : Route → Except Text Route
  | .keyPair => .ok .keyPair
  | .health => .ok .health
  | .stats => .ok .stats
  | .upload key => do pure (.upload (← decodeCapture "key" key))
  | .patch key path => do
    pure (.patch (← decodeCapture "key" key) (trimSlashes (← decodeCapture "path" path)))
  | .downloadJson key => do pure (.downloadJson (← decodeCapture "key" key))
  | .downloadPlain key field => do
    pure (.downloadPlain (← decodeCapture "key" key) (trimSlashes (← decodeCapture "field" field)))
  | .downloadDecoded key field => do
    pure (.downloadDecoded (← decodeCapture "key" key)
      (trimSlashes (← decodeCapture "field" field)))
  | .delete key => do pure (.delete (← decodeCapture "key" key))

end Route

end DeadDrop.Http
