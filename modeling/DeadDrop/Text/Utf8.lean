import DeadDrop.Text

/-!
# UTF-8

Writing text as bytes, and reading bytes one octet at a time. The reader keeps the character that
has begun and how it may go on; an octet that cannot go on ends the character as ill-formed and is
then read as a beginning. So what is ill-formed comes in maximal pieces: each is the longest
stretch with which a well-formed character could begin, or one octet if there is none.
-/

namespace DeadDrop.Text

/-- A character that has begun: the bits read so far, the octets still owed (at least one), and
the range of the next octet. -/
structure Utf8Pending where
  bits : Nat
  owed : Nat
  low : Nat := 0x80
  high : Nat := 0xBF
  deriving DecidableEq, Repr

inductive Utf8Lead where
  | whole (c : Char)
  | begun (pending : Utf8Pending)
  | illFormed
  deriving DecidableEq, Repr

/-- Reads the first octet of a character. After `E0`, `ED`, `F0` and `F4` the second octet is
narrowed, which keeps out overlong forms, surrogates and values above `10FFFF`. -/
def utf8Lead (octet : Nat) : Utf8Lead :=
  if octet < 0x80 then .whole (Char.ofNat octet)
  else if octet < 0xC2 then .illFormed
  else if octet < 0xE0 then .begun { bits := octet - 0xC0, owed := 1 }
  else if octet = 0xE0 then .begun { bits := 0, owed := 2, low := 0xA0 }
  else if octet = 0xED then .begun { bits := 0xD, owed := 2, high := 0x9F }
  else if octet < 0xF0 then .begun { bits := octet - 0xE0, owed := 2 }
  else if octet = 0xF0 then .begun { bits := 0, owed := 3, low := 0x90 }
  else if octet < 0xF4 then .begun { bits := octet - 0xF0, owed := 3 }
  else if octet = 0xF4 then .begun { bits := 4, owed := 3, high := 0x8F }
  else .illFormed

/-- The characters of a byte string, `none` standing for each ill-formed piece. -/
def utf8Units : Option Utf8Pending → Bytes → List (Option Char)
  | none, [] => []
  | some _, [] => [none]
  | pending, byte :: rest =>
    let octet := byte.toNat
    let begin : List (Option Char) :=
      match utf8Lead octet with
      | .whole c => some c :: utf8Units none rest
      | .begun next => utf8Units (some next) rest
      | .illFormed => none :: utf8Units none rest
    match pending with
    | none => begin
    | some p =>
      if p.low ≤ octet ∧ octet ≤ p.high then
        let bits := p.bits * 64 + (octet - 0x80)
        match p.owed with
        | 0 | 1 => some (Char.ofNat bits) :: utf8Units none rest
        | owed + 2 => utf8Units (some { bits, owed := owed + 1 }) rest
      else none :: begin

/-- The text that a byte string spells, if it is well-formed UTF-8. -/
def ofUtf8? (b : Bytes) : Option Text := (utf8Units none b).mapM id

/-- The text of any byte string, with U+FFFD for each ill-formed piece. -/
def ofUtf8Lossy (b : Bytes) : Text := (utf8Units none b).map (·.getD '\uFFFD')

/-- The UTF-8 bytes of text. -/
def toUtf8 (t : Text) : Bytes := t.flatMap String.utf8EncodeChar

end DeadDrop.Text
