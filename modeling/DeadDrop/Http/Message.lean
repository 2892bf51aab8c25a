import DeadDrop.Http.Uri
import DeadDrop.Net.Address

/-!
# Requests and responses

HTTP messages as far as this server looks at them. A request can only be made of parts that may
stand in one; its body is not looked at.
-/

namespace DeadDrop.Http

/-! ### Methods -/

inductive Method where
  | get
  | head
  | options
  | other (name : Text)
  deriving DecidableEq, Repr

/-- Whether a character may stand in a method or in the name of a header. -/
def isTokenChar (c : Char) : Bool :=
  c.isAlphanum || c ∈ "!#$%&'*+-.^_|~\x60".toList

/-- Whether text is a token: not empty, and of token characters only. -/
def isToken (t : Text) : Bool := !t.isEmpty && t.all isTokenChar

/-- Reads a method. Case matters. -/
def Method.ofText? (t : Text) : Option Method :=
  if t = "GET".toList then some .get
  else if t = "HEAD".toList then some .head
  else if t = "OPTIONS".toList then some .options
  else if isToken t then some (.other t)
  else none

/-! ### Headers -/

/-- A header of a request. The name is in lower case. -/
structure Header where
  name : Text
  value : Bytes
  deriving DecidableEq, Repr

namespace Header

def isValueOctet (octet : UInt8) : Bool :=
  octet = 9 || (32 ≤ octet && octet ≠ 127)

def make? (name : Text) (value : Bytes) : Option Header :=
  if isToken name && value.all isValueOctet then some { name := name.lowerCase, value } else none

/-- Whether an octet is visible: printable ASCII, a blank or a tabulator. -/
def isVisible (octet : UInt8) : Bool := octet = 9 || (32 ≤ octet && octet < 127)

/-- The value of a header as text, if all of it is visible. -/
def text? (h : Header) : Option Text :=
  if h.value.all isVisible then some (h.value.map fun octet => Char.ofNat octet.toNat) else none

end Header

/-! ### Requests -/

/-- A request, and the address it comes from if that is known. -/
structure Request where
  method : Method
  uri : Uri
  headers : List Header
  peer : Option SocketAddress
  deriving DecidableEq, Repr

namespace Request

/-- Makes a request of its parts, if each may stand in one. -/
def make? (method uri : Text) (headers : List (Text × Bytes)) (peer : Option SocketAddress) :
    Option Request := do
  let method ← Method.ofText? method
  let uri ← Uri.ofText? uri
  let headers ← headers.mapM fun header => Header.make? header.1 header.2
  pure { method, uri, headers, peer }

/-- The value of the first header with a name, if it is visible text. -/
def headerText? (request : Request) (name : Text) : Option Text :=
  (request.headers.find? fun header => decide (header.name = name)).bind Header.text?

def host (request : Request) : Text :=
  (request.headerText? "host".toList).getD "localhost".toList

/-- Whether the method asks for a resource: `GET` or `HEAD`. -/
def isRead (request : Request) : Bool := request.method = .get || request.method = .head

end Request

/-! ### Responses -/

structure Response where
  status : Nat
  headers : List (Text × Text)
  body : Bytes
  deriving DecidableEq, Repr

namespace Response

def empty (status : Nat) : Response := { status, headers := [], body := [] }

def ofBody (status : Nat) (type : String) (body : Bytes) : Response :=
  { status, headers := [("content-type".toList, type.toList)], body }

def plain (status : Nat) (text : Text) : Response :=
  ofBody status "text/plain; charset=utf-8" text.toUtf8

def json (body : Bytes) : Response := ofBody 200 "application/json" body

def isError (response : Response) : Bool := 400 ≤ response.status

def withHeaders (headers : List (Text × Text)) (response : Response) : Response :=
  { response with headers := response.headers ++ headers }

end Response

end DeadDrop.Http
