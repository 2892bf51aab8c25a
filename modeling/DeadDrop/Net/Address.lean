import DeadDrop.Text.Hex

/-!
# Internet addresses

IPv4 and IPv6 addresses, their canonical texts, and the texts that are read as one. An IPv6 text may
leave out one run of zero groups, as `::`, and may spell its last two groups as an IPv4 address; the
canonical text leaves out the longest run, and the first of several.
-/

namespace DeadDrop

structure IPv4 where
  a : UInt8
  b : UInt8
  c : UInt8
  d : UInt8
  deriving DecidableEq, Repr

structure IPv6 where
  groups : List UInt16
  length_groups : groups.length = 8
  deriving DecidableEq, Repr

inductive IPAddress where
  | v4 (address : IPv4)
  | v6 (address : IPv6)
  deriving DecidableEq, Repr

/-! ### Reading -/

/-- Reads an octet: one to three digits without a leading zero, at most 255. -/
def octet? (t : Text) : Option UInt8 :=
  match Text.toNat? t with
  | some n =>
    if n ≤ 255 ∧ t.length ≤ 3 ∧ (t.length = 1 ∨ t.head? ≠ some '0') then some (UInt8.ofNat n)
    else none
  | none => none

def IPv4.ofText? (t : Text) : Option IPv4 :=
  match (t.splitOn '.').mapM octet? with
  | some [a, b, c, d] => some { a, b, c, d }
  | _ => none

/-- The number that hexadecimal digits denote, going on from `value`. -/
def hexFrom? (value : Nat) : Text → Option Nat
  | [] => some value
  | c :: rest => (Hex.digit? c).bind fun d => hexFrom? (value * 16 + d) rest

def group? (t : Text) : Option UInt16 :=
  if t.isEmpty ∨ 4 < t.length then none else (hexFrom? 0 t).map UInt16.ofNat

/-- The two groups that an IPv4 address stands for at the end of an IPv6 text. -/
def IPv4.toGroups (address : IPv4) : List UInt16 :=
  [UInt16.ofNat (address.a.toNat * 256 + address.b.toNat),
    UInt16.ofNat (address.c.toNat * 256 + address.d.toNat)]

/-- Reads groups from pieces of text, of which the last may be an IPv4 address. -/
def groups? : List Text → Option (List UInt16)
  | [] => some []
  | [last] =>
    match IPv4.ofText? last with
    | some address => some address.toGroups
    | none => (group? last).map ([·])
  | piece :: rest => do
    let group ← group? piece
    let groups ← groups? rest
    pure (group :: groups)

/-- The text in front of the first `::` and the text behind it, if there is one. -/
def cutDoubleColon : Text → Option (Text × Text)
  | ':' :: ':' :: rest => some ([], rest)
  | c :: rest => (cutDoubleColon rest).map fun parts => (c :: parts.1, parts.2)
  | [] => none

/-- The pieces between single colons; the empty text has none. -/
def colonPieces (t : Text) : List Text := if t.isEmpty then [] else t.splitOn ':'

/-- Reads eight groups, or fewer with `::` in place of the missing ones. In front of `::` no IPv4
address may stand. -/
def IPv6.ofText? (t : Text) : Option IPv6 :=
  let groups : Option (List UInt16) :=
    match cutDoubleColon t with
    | none => groups? (colonPieces t)
    | some (before, behind) => do
      let head ← (colonPieces before).mapM group?
      let tail ← groups? (colonPieces behind)
      if head.length + tail.length ≤ 7 then
        some (head ++ List.replicate (8 - (head.length + tail.length)) 0 ++ tail)
      else none
  match groups with
  | some groups => if h : groups.length = 8 then some ⟨groups, h⟩ else none
  | none => none

def IPAddress.ofText? (t : Text) : Option IPAddress :=
  match IPv4.ofText? t with
  | some address => some (.v4 address)
  | none => (IPv6.ofText? t).map .v6

/-! ### Writing -/

def IPv4.toText (address : IPv4) : Text :=
  Text.ofNat address.a.toNat ++ '.' :: Text.ofNat address.b.toNat ++
    '.' :: Text.ofNat address.c.toNat ++ '.' :: Text.ofNat address.d.toNat

/-- A run of zero groups: where it begins and how long it is. -/
structure ZeroRun where
  start : Nat
  length : Nat
  deriving DecidableEq, Repr

/-- The longest run of zeros, and the first of several, from a position on. `best` is the best run
so far and `current` the run that reaches up to the position. -/
def longestZeroRun (best current : ZeroRun) (position : Nat) : List UInt16 → ZeroRun
  | [] => best
  | group :: rest =>
    if group = 0 then
      let current : ZeroRun :=
        if current.length = 0 then ⟨position, 1⟩ else ⟨current.start, current.length + 1⟩
      longestZeroRun (if best.length < current.length then current else best) current
        (position + 1) rest
    else longestZeroRun best ⟨0, 0⟩ (position + 1) rest

/-- Groups in lower-case hexadecimal, with colons between them. -/
def groupsText (groups : List UInt16) : Text :=
  Text.join [':'] (groups.map fun group => Nat.toDigits 16 group.toNat)

/-- The canonical text of an IPv6 address. An address that stands for an IPv4 address ends in that
address's text. -/
def IPv6.toText (address : IPv6) : Text :=
  match address.groups with
  | [0, 0, 0, 0, 0, 0xFFFF, high, low] =>
    let mapped : IPv4 :=
      { a := UInt8.ofNat (high.toNat / 256), b := UInt8.ofNat high.toNat
        c := UInt8.ofNat (low.toNat / 256), d := UInt8.ofNat low.toNat }
    "::ffff:".toList ++ mapped.toText
  | groups =>
    let run := longestZeroRun ⟨0, 0⟩ ⟨0, 0⟩ 0 groups
    if 1 < run.length then
      groupsText (groups.take run.start) ++ [':', ':'] ++
        groupsText (groups.drop (run.start + run.length))
    else groupsText groups

def IPAddress.toText : IPAddress → Text
  | .v4 address => address.toText
  | .v6 address => address.toText

/-- Whether an address is one of the machine's own: `127.0.0.0/8` or `::1`. -/
def IPAddress.isLoopback : IPAddress → Bool
  | .v4 address => decide (address.a = 127)
  | .v6 address => decide (address.groups = [0, 0, 0, 0, 0, 0, 0, 1])

/-! ### Socket addresses -/

/-- An address, a port, and for IPv6 a scope that tells links apart; zero is no scope. -/
structure SocketAddress where
  ip : IPAddress
  port : Nat
  scope : Nat
  deriving DecidableEq, Repr

def numberBelow? (limit : Nat) (t : Text) : Option Nat :=
  match Text.toNat? t with
  | some n => if n < limit then some n else none
  | none => none

def SocketAddress.ofIPv4Text? (t : Text) : Option SocketAddress := do
  let (host, port) := t.cut ':'
  let address ← IPv4.ofText? host
  let port ← numberBelow? UInt16.size (← port)
  pure { ip := .v4 address, port, scope := 0 }

/-- Reads `[address]:port` or `[address%scope]:port` for IPv6. -/
def SocketAddress.ofIPv6Text? (t : Text) : Option SocketAddress := do
  let (inside, behind) := t.cut ']'
  let (host, scope) := inside.cut '%'
  let address ← IPv6.ofText? host
  let scope ← match scope with
    | none => some 0
    | some digits => numberBelow? UInt32.size digits
  match ← behind with
  | ':' :: digits =>
    let port ← numberBelow? UInt16.size digits
    pure { ip := .v6 address, port, scope }
  | _ => none

def SocketAddress.ofText? : Text → Option SocketAddress
  | '[' :: rest => ofIPv6Text? rest
  | t => ofIPv4Text? t

def SocketAddress.toText (address : SocketAddress) : Text :=
  match address.ip with
  | .v4 ip => ip.toText ++ ':' :: Text.ofNat address.port
  | .v6 ip =>
    let scope := if address.scope = 0 then [] else '%' :: Text.ofNat address.scope
    '[' :: ip.toText ++ scope ++ ']' :: ':' :: Text.ofNat address.port

end DeadDrop
