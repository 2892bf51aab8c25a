import DeadDrop.Text.Hex

/-!
# Percent escapes

In a URI an octet may be spelled as a percent sign and two hexadecimal digits. A percent sign
without two digits behind it stands for itself.
-/

namespace DeadDrop.Percent

/-- The octet of the percent sign. -/
def sign : UInt8 := 0x25

/-- The value of an octet that is a hexadecimal digit. -/
def digit? (octet : UInt8) : Option Nat := Hex.digit? (Char.ofNat octet.toNat)

/-- Replaces every escape by its octet. -/
def decode : Bytes → Bytes
  | [] => []
  | octet :: high :: low :: rest =>
    if octet = sign then
      match digit? high, digit? low with
      | some h, some l => UInt8.ofNat (h * 16 + l) :: decode rest
      | _, _ => octet :: decode (high :: low :: rest)
    else octet :: decode (high :: low :: rest)
  | octet :: rest => octet :: decode rest

end DeadDrop.Percent
