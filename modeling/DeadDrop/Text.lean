/-!
# Text and bytes

Text is a list of Unicode scalar values, and a byte string is a list of octets, so that a statement
about either is a statement about lists. The operations here are the ones that the rest of the
library cuts text with: splitting at a separator, taking a fixed beginning away, trimming.
-/

namespace DeadDrop

abbrev Text := List Char

abbrev Bytes := List UInt8

namespace Text

/-- Splits at every occurrence of a separator. There is always one piece more than there are
separators, so the empty text is one empty piece. -/
def splitOn (separator : Char) : Text → List Text
  | [] => [[]]
  | c :: rest =>
    if c = separator then [] :: splitOn separator rest
    else
      match splitOn separator rest with
      | [] => [[c]]
      | piece :: pieces => (c :: piece) :: pieces

/-- The text in front of the first separator, and the text behind it if there is one. -/
def cut (separator : Char) : Text → Text × Option Text
  | [] => ([], none)
  | c :: rest =>
    if c = separator then ([], some rest)
    else ((c :: (cut separator rest).1), (cut separator rest).2)

def join (separator : Text) : List Text → Text
  | [] => []
  | [piece] => piece
  | piece :: pieces => piece ++ separator ++ join separator pieces

/-- Takes one copy of `start` off the front, if the text begins with it. -/
def withoutStart (t start : Text) : Text :=
  (start.isPrefixOf? t).getD t

/-- Lower-cases the letters `A` to `Z` and keeps every other character. -/
def lowerCase (t : Text) : Text := t.map Char.toLower

def trim (blank : Char → Bool) (t : Text) : Text :=
  ((t.dropWhile blank).reverse.dropWhile blank).reverse

/-- The decimal numeral of a number, without leading zeros. -/
def ofNat (n : Nat) : Text := Nat.toDigits 10 n

/-- The decimal numeral of an integer, with a minus sign in front if it is negative. -/
def ofInt : Int → Text
  | .ofNat n => ofNat n
  | .negSucc n => '-' :: ofNat (n + 1)

/-- The decimal numeral of a number, with leading zeros up to a width. -/
def padded (width n : Nat) : Text :=
  List.replicate (width - (ofNat n).length) '0' ++ ofNat n

/-- The value of an ASCII decimal digit. -/
def digit? (c : Char) : Option Nat :=
  if '0' ≤ c ∧ c ≤ '9' then some (c.toNat - '0'.toNat) else none

/-- Whether a character is an ASCII decimal digit. -/
def isDigit (c : Char) : Bool := (digit? c).isSome

/-- The number that a sequence of decimal digits denotes, going on from `value`. -/
def digitsFrom? (value : Nat) : Text → Option Nat
  | [] => some value
  | c :: rest => (digit? c).bind fun d => digitsFrom? (value * 10 + d) rest

/-- The number that a non-empty sequence of ASCII digits denotes; no sign, no separator. -/
def toNat? (t : Text) : Option Nat :=
  if t.isEmpty then none else digitsFrom? 0 t

end Text

namespace Bytes

/-- The number that big-endian bytes denote. -/
def toNatBE (b : Bytes) : Nat := b.foldl (fun n byte => n * 256 + byte.toNat) 0

/-- The last `width` big-endian bytes of a number. -/
def ofNatBE : (width n : Nat) → Bytes
  | 0, _ => []
  | width + 1, n => ofNatBE width (n / 256) ++ [UInt8.ofNat n]

end Bytes

end DeadDrop
