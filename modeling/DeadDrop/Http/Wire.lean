import DeadDrop.Http.Message

/-!
# Messages on the wire

The head of a request as the octets that a connection brings, and a response as the octets that it
takes. A connection is for one request, and the body of a request is not read.
-/

namespace DeadDrop.Http.Wire

/-- Cuts the head of a request off at its empty line, if the line has come. -/
def head? : Bytes → Option Bytes
  | 13 :: 10 :: 13 :: 10 :: _ => some []
  | octet :: rest => (head? rest).map (octet :: ·)
  | [] => none

def lines : Bytes → List Bytes
  | [] => [[]]
  | 13 :: 10 :: rest => [] :: lines rest
  | octet :: rest =>
    match lines rest with
    | [] => [[octet]]
    | line :: more => (octet :: line) :: more

def isBlank (octet : UInt8) : Bool := octet = 32 || octet = 9

def header? (line : Bytes) : Option (Text × Bytes) :=
  match line.dropWhile (· != 58) with
  | [] => none
  | _ :: value =>
    (Text.ofUtf8? (line.takeWhile (· != 58))).map fun name =>
      (name, ((value.dropWhile isBlank).reverse.dropWhile isBlank).reverse)

def requestLine? (line : Bytes) : Option (Text × Text) :=
  match (Text.ofUtf8? line).map (Text.splitOn ' ') with
  | some [method, target, version] =>
    if "HTTP/1.".toList.isPrefixOf version then some (method, target) else none
  | _ => none

def request? (head : Bytes) (peer : Option SocketAddress) : Option Request :=
  match lines head with
  | [] => none
  | first :: rest => do
    let (method, target) ← requestLine? first
    let headers ← rest.mapM header?
    Request.make? method target headers peer

def phrase (status : Nat) : Text :=
  match status with
  | 200 => "OK".toList
  | 400 => "Bad Request".toList
  | 404 => "Not Found".toList
  | 405 => "Method Not Allowed".toList
  | 413 => "Payload Too Large".toList
  | 429 => "Too Many Requests".toList
  | _ => "Internal Server Error".toList

def headerLine (header : Text × Text) : Text :=
  header.1 ++ ": ".toList ++ header.2 ++ "\r\n".toList

/-- The octets of a response, after which the connection is closed. -/
def ofResponse (response : Response) : Bytes :=
  let first := "HTTP/1.1 ".toList ++ Text.ofNat response.status ++ ' ' :: phrase response.status ++
    "\r\n".toList
  let headers := (response.headers ++ [("connection".toList, "close".toList)]).flatMap headerLine
  Text.toUtf8 (first ++ headers ++ "\r\n".toList) ++ response.body

end DeadDrop.Http.Wire
