import DeadDrop.Binary64.Shortest

/-!
# Binary64 numbers as text

Numbers are written by their shortest decimals, in one of two forms. The plain form is positional at
every size. The full form shows a fraction even where it is zero, and is scientific for very small
and very large numbers.
-/

namespace DeadDrop.Binary64

/-- The positional text of a decimal; `fraction` stands behind a whole number. -/
def Decimal.positional (fraction : Text) (d : Decimal) : Text :=
  if d.exponent ≤ 0 then
    '0' :: '.' :: List.replicate (-d.exponent).toNat '0' ++ d.digits
  else if (d.digits.length : Int) ≤ d.exponent then
    d.digits ++ List.replicate (d.exponent.toNat - d.digits.length) '0' ++ fraction
  else d.digits.take d.exponent.toNat ++ '.' :: d.digits.drop d.exponent.toNat

def Decimal.scientific (d : Decimal) : Text :=
  d.digits.take 1 ++ (if d.digits.length ≤ 1 then [] else '.' :: d.digits.drop 1) ++
    'e' :: Text.ofInt (d.exponent - 1)

def signText (negative : Bool) : Text := if negative then ['-'] else []

def toText : Binary64 → Text
  | .nan => "NaN".toList
  | .infinite negative => signText negative ++ "inf".toList
  | .finite negative significand exponent =>
    signText negative ++
      if significand = 0 then ['0'] else (shortest significand exponent).positional []

/-- The exponents of decimals that the full form writes positionally: from `0.0001` up to, but not
including, `10 ^ 16`. -/
def positionalExponents : Int × Int := (-3, 16)

def toFullText : Binary64 → Text
  | .nan => "NaN".toList
  | .infinite negative => signText negative ++ "inf".toList
  | .finite negative significand exponent =>
    signText negative ++
      if significand = 0 then ['0', '.', '0']
      else
        let d := shortest significand exponent
        if positionalExponents.1 ≤ d.exponent ∧ d.exponent ≤ positionalExponents.2 then
          d.positional ['.', '0']
        else d.scientific

/-! ### Reading -/

/-- An optional sign in front of a text: whether it is negative, and what follows. -/
def readSign : Text → Bool × Text
  | '-' :: rest => (true, rest)
  | '+' :: rest => (false, rest)
  | t => (false, t)

def readExponent? (t : Text) : Option Int :=
  let (negative, digits) := readSign t
  (Text.toNat? digits).map fun n => if negative then -(n : Int) else n

/-- Reads digits with an optional fraction and an optional exponent. One digit is enough, on either
side of the point. -/
def readDecimal? (negative : Bool) (t : Text) : Option Binary64 :=
  let whole := t.takeWhile Text.isDigit
  let afterWhole := t.dropWhile Text.isDigit
  let (fraction, rest) :=
    match afterWhole with
    | '.' :: rest => (rest.takeWhile Text.isDigit, rest.dropWhile Text.isDigit)
    | rest => ([], rest)
  let exponent :=
    match rest with
    | [] => some 0
    | c :: rest => if c = 'e' ∨ c = 'E' then readExponent? rest else none
  match Text.toNat? (whole ++ fraction), exponent with
  | some digits, some exponent => some (ofDecimal negative digits (exponent - fraction.length))
  | _, _ => none

/-- Reads a number: a decimal, `inf` or `nan`, each with an optional sign. -/
def ofText? (t : Text) : Option Binary64 :=
  let (negative, rest) := readSign t
  if rest = "nan".toList then some .nan
  else if rest = "inf".toList then some (.infinite negative)
  else readDecimal? negative rest

end DeadDrop.Binary64
