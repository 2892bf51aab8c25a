import DeadDrop.Text.Utf8

/-!
# Request targets

What a request asks for, in one of four forms: a path with or without a query, an asterisk, an
authority alone, or an absolute URI. Only the path and the query are kept. A fragment is dropped. An
authority alone has the empty path, and an absolute URI without a path has the path `/`.

Reading is lenient about characters that should have been escaped: in a path and a query everything
beyond ASCII is let through, and so are some of the marks that are no URI characters.
-/

namespace DeadDrop.Http

/-- The part of a request target that says what is asked for. -/
structure Uri where
  path : Text
  query : Option Text
  deriving DecidableEq, Repr

namespace Uri

/-- Whether a character may stand in the scheme of an absolute URI. -/
def isSchemeChar (c : Char) : Bool := c.isAlphanum || c ∈ ['+', '-', '.']

def endsAuthority (c : Char) : Bool := c ∈ ['/', '?', '#']

/-- Whether a character may stand in an authority, the percent sign apart. -/
def isAuthorityChar (c : Char) : Bool :=
  c.isAlphanum || c ∈ "!$&'()*+,-.:;=@[]_~".toList

def isPathChar (c : Char) : Bool :=
  0x7F ≤ c.toNat || (0x20 < c.toNat && !(c ∈ ['#', '<', '>', '?', '\x60']))

/-- Whether a character may stand in a query as it is. -/
def isQueryChar (c : Char) : Bool :=
  0x7F ≤ c.toNat || (0x20 < c.toNat && !(c ∈ ['"', '#', '<', '>']))

/-! ### Authorities -/

/-- What has been seen of an authority: the colons since the user part or the bracketed host ended,
the brackets, and whether an escape has been met since then. -/
structure AuthorityScan where
  colons : Nat := 0
  opened : Bool := false
  closed : Bool := false
  escaped : Bool := false
  deriving DecidableEq, Repr

/-- The greatest number of colons in a row of groups. -/
def maxColons : Nat := 8

/-- Reads one character of an authority. A bracketed host and the user part may hold colons and
escapes, so both are forgotten where they end. -/
def AuthorityScan.step (scan : AuthorityScan) (c : Char) : Option AuthorityScan :=
  if c = ':' then
    if maxColons ≤ scan.colons then none else some { scan with colons := scan.colons + 1 }
  else if c = '[' then
    if scan.escaped || scan.opened then none else some { scan with opened := true }
  else if c = ']' then
    if !scan.opened || scan.closed then none
    else some { scan with closed := true, colons := 0, escaped := false }
  else if c = '@' then some { scan with colons := 0, escaped := false }
  else if c = '%' then some { scan with escaped := true }
  else if isAuthorityChar c then some scan
  else none

/-- Whether text is a well-formed authority: brackets in a pair, one port at most, no escape in the
host, and a host behind the user part. -/
def isAuthority (t : Text) : Bool :=
  match t.foldlM AuthorityScan.step {} with
  | none => false
  | some scan =>
    scan.opened == scan.closed && scan.colons ≤ 1 && t.getLast? != some '@' && !scan.escaped

/-! ### Paths and queries -/

def ofPathAndQuery? (t : Text) : Option Uri :=
  let path := t.takeWhile isPathChar
  let shown := if path.isEmpty then ['/'] else path
  match t.dropWhile isPathChar with
  | [] => some { path := shown, query := none }
  | '#' :: _ => some { path := shown, query := none }
  | '?' :: rest =>
    let uri : Uri := { path := shown, query := some (rest.takeWhile isQueryChar) }
    match rest.dropWhile isQueryChar with
    | [] => some uri
    | '#' :: _ => some uri
    | _ => none
  | _ => none

/-! ### Whole targets -/

/-- The greatest number of octets in a request target. -/
def maxOctets : Nat := 65534

/-- The greatest number of characters in a scheme. -/
def maxSchemeLength : Nat := 64

def ofAbsolute? (t : Text) : Option Uri :=
  let authority := t.takeWhile fun c => !endsAuthority c
  if !authority.isEmpty && isAuthority authority then
    ofPathAndQuery? (t.dropWhile fun c => !endsAuthority c)
  else none

def ofText? (t : Text) : Option Uri :=
  if maxOctets < (Text.toUtf8 t).length then none
  else
    match t with
    | [] => none
    | ['*'] => some { path := ['*'], query := none }
    | '/' :: _ => ofPathAndQuery? t
    | _ =>
      let scheme := t.takeWhile isSchemeChar
      match t.dropWhile isSchemeChar with
      | ':' :: '/' :: '/' :: rest =>
        if maxSchemeLength < scheme.length then none else ofAbsolute? rest
      | _ => if isAuthority t then some { path := [], query := none } else none

end Uri

end DeadDrop.Http
