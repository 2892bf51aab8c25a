import DeadDrop.Text

/-!
# Hexadecimal text

Bytes written as two lower-case digits each, and read back from digits of either case.
-/

namespace DeadDrop.Hex

def digit? (c : Char) : Option Nat :=
  if '0' ≤ c ∧ c ≤ '9' then some (c.toNat - '0'.toNat)
  else if 'a' ≤ c ∧ c ≤ 'f' then some (c.toNat - 'a'.toNat + 10)
  else if 'A' ≤ c ∧ c ≤ 'F' then some (c.toNat - 'A'.toNat + 10)
  else none

/-- The two lower-case digits of a byte. -/
def ofByte (b : UInt8) : Text := [Nat.digitChar (b.toNat / 16), Nat.digitChar (b.toNat % 16)]

/-- The lower-case digits of a byte string. -/
def encode (b : Bytes) : Text := b.flatMap ofByte

/-- The bytes that a text of hexadecimal digits denotes: none if it has an odd length or another
character. -/
def decode? : Text → Option Bytes
  | [] => some []
  | [_] => none
  | high :: low :: rest =>
    match digit? high, digit? low with
    | some h, some l => (decode? rest).map (UInt8.ofNat (h * 16 + l) :: ·)
    | _, _ => none

end DeadDrop.Hex
