import DeadDrop.Text

/-!
# Base64

Four encodings of bytes: with the standard or the URL-safe alphabet, and with or without padding.
Reading is strict: padding is there exactly if the encoding has it, and the bits of the last letter
that belong to no byte are zero. So every byte string has one text in each encoding.
-/

namespace DeadDrop.Base64

/-- The two alphabets. They differ in the last two letters. -/
inductive Alphabet where
  | standard
  | urlSafe
  deriving DecidableEq, Repr

/-- An encoding: an alphabet, and whether the last group is padded. -/
structure Encoding where
  alphabet : Alphabet
  padded : Bool
  deriving DecidableEq, Repr

def Alphabet.digit? (alphabet : Alphabet) (c : Char) : Option Nat :=
  if 'A' ≤ c ∧ c ≤ 'Z' then some (c.toNat - 'A'.toNat)
  else if 'a' ≤ c ∧ c ≤ 'z' then some (c.toNat - 'a'.toNat + 26)
  else if '0' ≤ c ∧ c ≤ '9' then some (c.toNat - '0'.toNat + 52)
  else
    match alphabet with
    | .standard => if c = '+' then some 62 else if c = '/' then some 63 else none
    | .urlSafe => if c = '-' then some 62 else if c = '_' then some 63 else none

/-- The bytes of a sequence of letter values, four letters for three bytes. Two or three letters at
the end make one or two bytes, if their spare bits are zero. -/
def ofDigits? : List Nat → Option Bytes
  | [] => some []
  | [_] => none
  | [a, b] => if b % 16 = 0 then some [UInt8.ofNat (a * 4 + b / 16)] else none
  | [a, b, c] =>
    if c % 4 = 0 then
      some [UInt8.ofNat (a * 4 + b / 16), UInt8.ofNat (b % 16 * 16 + c / 4)]
    else none
  | a :: b :: c :: d :: rest =>
    (ofDigits? rest).map fun bytes =>
      UInt8.ofNat (a * 4 + b / 16) :: UInt8.ofNat (b % 16 * 16 + c / 4) ::
        UInt8.ofNat (c % 4 * 64 + d) :: bytes

/-- The signs that pad a number of letters to whole groups of four. -/
def padding (letters : Nat) : Text := List.replicate ((4 - letters % 4) % 4) '='

def Encoding.decode? (encoding : Encoding) (t : Text) : Option Bytes :=
  let letters := t.takeWhile fun c => decide (c ≠ '=')
  let expected := if encoding.padded then padding letters.length else []
  if t = letters ++ expected then
    (letters.mapM encoding.alphabet.digit?).bind ofDigits?
  else none

def Alphabet.letter (alphabet : Alphabet) (value : Nat) : Char :=
  if value < 26 then Char.ofNat ('A'.toNat + value)
  else if value < 52 then Char.ofNat ('a'.toNat + (value - 26))
  else if value < 62 then Char.ofNat ('0'.toNat + (value - 52))
  else
    match alphabet with
    | .standard => if value = 62 then '+' else '/'
    | .urlSafe => if value = 62 then '-' else '_'

/-- The letter values of bytes, with zeros for the spare bits. -/
def toDigits : Bytes → List Nat
  | [] => []
  | [x] => [x.toNat / 4, x.toNat % 4 * 16]
  | [x, y] => [x.toNat / 4, x.toNat % 4 * 16 + y.toNat / 16, y.toNat % 16 * 4]
  | x :: y :: z :: rest =>
    x.toNat / 4 :: (x.toNat % 4 * 16 + y.toNat / 16) :: (y.toNat % 16 * 4 + z.toNat / 64) ::
      z.toNat % 64 :: toDigits rest

def Encoding.encode (encoding : Encoding) (b : Bytes) : Text :=
  let letters := (toDigits b).map encoding.alphabet.letter
  letters ++ if encoding.padded then padding letters.length else []

/-- The four encodings, in the order in which they are tried. -/
def encodings : List Encoding :=
  [⟨.standard, true⟩, ⟨.urlSafe, true⟩, ⟨.standard, false⟩, ⟨.urlSafe, false⟩]

/-- The bytes of a text in the first encoding that accepts it. -/
def decodeAny? (t : Text) : Option Bytes := encodings.findSome? fun encoding => encoding.decode? t

end DeadDrop.Base64
