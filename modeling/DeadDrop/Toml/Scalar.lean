import DeadDrop.Binary64.Text
import DeadDrop.Text.Hex

/-!
# TOML scalars

The values that a setting may have: strings, integers, numbers with a fraction or an exponent, and
booleans. Digits may be divided by single underscores. An integer has no leading zero in decimal,
and no sign in another base.
-/

namespace DeadDrop.Toml

inductive Scalar where
  | string (text : Text)
  | integer (n : Int)
  | float (x : Binary64)
  | boolean (b : Bool)
  deriving DecidableEq, Repr

/-- Digits without the underscores between them: each underscore has a digit on either side. -/
def joinDigits? (isDigit : Char → Bool) (t : Text) : Option Text :=
  let groups := Text.splitOn '_' t
  if groups.all fun group => !group.isEmpty && group.all isDigit then some groups.flatten else none

def numberOf (base : Nat) (digits : Text) : Nat :=
  digits.foldl (fun n c => n * base + (Hex.digit? c).getD 0) 0

def digits? (base : Nat) (t : Text) : Option Nat :=
  (joinDigits? (fun c => ((Hex.digit? c).map fun d => decide (d < base)).getD false) t).map
    (numberOf base)

/-- Reads the digits of a decimal integer: no leading zero, apart from zero itself. -/
def wholeDigits? (t : Text) : Option Text :=
  match joinDigits? Text.isDigit t with
  | some ('0' :: _ :: _) => none
  | other => other

def integer? : Text → Option Int
  | '0' :: 'x' :: rest => (digits? 16 rest).map fun (n : Nat) => (n : Int)
  | '0' :: 'o' :: rest => (digits? 8 rest).map fun (n : Nat) => (n : Int)
  | '0' :: 'b' :: rest => (digits? 2 rest).map fun (n : Nat) => (n : Int)
  | t =>
    let (negative, rest) := Binary64.readSign t
    (wholeDigits? rest).map fun digits =>
      if negative then -(numberOf 10 digits : Int) else (numberOf 10 digits : Int)

/-- Reads an exponent: `e` in either case, an optional sign, and digits. -/
def exponent? : Text → Option Int
  | [] => some 0
  | c :: rest =>
    if c = 'e' ∨ c = 'E' then
      let (negative, digits) := Binary64.readSign rest
      (joinDigits? Text.isDigit digits).map fun digits =>
        if negative then -(numberOf 10 digits : Int) else (numberOf 10 digits : Int)
    else none

def beginsExponent (c : Char) : Bool := c = 'e' || c = 'E'

/-- Reads a decimal with a fraction, an exponent, or both. -/
def decimal? (negative : Bool) (t : Text) : Option Binary64 := do
  let mantissa := t.takeWhile fun c => !beginsExponent c
  let tail := t.dropWhile fun c => !beginsExponent c
  let (whole, fraction) := Text.cut '.' mantissa
  let whole ← wholeDigits? whole
  let fraction ← match fraction with
    | none => if tail.isEmpty then none else some []
    | some digits => joinDigits? Text.isDigit digits
  let exponent ← exponent? tail
  match Binary64.ofDecimal negative (numberOf 10 (whole ++ fraction))
      (exponent - fraction.length) with
  | .infinite _ => none
  | x => some x

/-- Reads a number that is no integer. One that is too large is refused. -/
def float? (t : Text) : Option Binary64 :=
  let (negative, rest) := Binary64.readSign t
  if rest = "inf".toList then some (.infinite negative)
  else if rest = "nan".toList then some .nan
  else decimal? negative rest

def Scalar.ofBare? (t : Text) : Option Scalar :=
  if t = "true".toList then some (.boolean true)
  else if t = "false".toList then some (.boolean false)
  else
    match integer? t with
    | some n => some (.integer n)
    | none => (float? t).map .float

end DeadDrop.Toml
