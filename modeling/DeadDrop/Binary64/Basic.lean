/-!
# Binary64 numbers

A rate is a binary64 number, and it is divided, rounded and printed exactly. So a finite number is
kept as its significand and exponent, and every rounding is one rounding of an exact quotient of
natural numbers to the nearest representable number, ties to the even significand.
-/

namespace DeadDrop

/-- Rounds a quotient to the nearest natural number, a tie to the even one. -/
def roundEven (numerator denominator : Nat) : Nat :=
  let quotient := numerator / denominator
  let twice := 2 * (numerator % denominator)
  if twice < denominator then quotient
  else if denominator < twice then quotient + 1
  else if quotient % 2 = 0 then quotient
  else quotient + 1

/-- A binary64 number. A finite one is `significand * 2 ^ exponent`, with the significand below
`2 ^ 53` and the exponent as small as that and the format's least exponent allow. -/
inductive Binary64 where
  | nan
  | infinite (negative : Bool)
  | finite (negative : Bool) (significand : Nat) (exponent : Int)
  deriving DecidableEq, Repr

namespace Binary64

/-- The exponent of the smallest positive number. -/
def leastExponent : Int := -1074

/-- The exponent of the largest numbers. -/
def greatestExponent : Int := 971

/-- One more than the largest significand. -/
def significandLimit : Nat := Nat.pow 2 53

def zero (negative : Bool) : Binary64 := .finite negative 0 leastExponent

/-- A power, or 1 if its exponent is negative. So `raised b e / raised b (-e)` is `b ^ e`, whatever
the sign of `e`. -/
def raised (base : Nat) (exponent : Int) : Nat := Nat.pow base exponent.toNat

/-- The exponent of the greatest power of two that is at most a positive quotient. -/
def floorLog2 (numerator denominator : Nat) : Int :=
  let guess : Int := (numerator.log2 : Int) - denominator.log2
  if denominator * raised 2 guess ≤ numerator * raised 2 (-guess) then guess else guess - 1

/-- The binary64 number nearest to a quotient. What rounds past the largest number is infinite. -/
def ofRatio (negative : Bool) (numerator denominator : Nat) : Binary64 :=
  if numerator = 0 then zero negative
  else
    let exponent := max (floorLog2 numerator denominator - 52) leastExponent
    let significand :=
      roundEven (numerator * raised 2 (-exponent)) (denominator * raised 2 exponent)
    let (significand, exponent) :=
      if significand = significandLimit then (significandLimit / 2, exponent + 1)
      else (significand, exponent)
    if greatestExponent < exponent then .infinite negative
    else .finite negative significand exponent

def ofInt (n : Int) : Binary64 := ofRatio (decide (n < 0)) n.natAbs 1

/-- The reciprocal, rounded once. -/
def reciprocal : Binary64 → Binary64
  | .nan => .nan
  | .infinite negative => zero negative
  | .finite negative significand exponent =>
    if significand = 0 then .infinite negative
    else ofRatio negative (raised 2 (-exponent)) (significand * raised 2 exponent)

def isPositive : Binary64 → Bool
  | .finite false significand _ => decide (0 < significand)
  | _ => false

/-- The IEEE 754 bits of a number; none for a NaN, which has many. -/
def toBits? : Binary64 → Option Nat
  | .nan => none
  | .infinite negative => some (sign negative + 2047 * (significandLimit / 2))
  | .finite negative significand exponent =>
    if significand < significandLimit / 2 then some (sign negative + significand)
    else
      some (sign negative + (exponent - leastExponent + 1).toNat * (significandLimit / 2) +
        (significand - significandLimit / 2))
where
  /-- The sign bit. -/
  sign (negative : Bool) : Nat := if negative then UInt64.size / 2 else 0

/-- The decimal exponent from which on every decimal with a digit in front is infinite, and below
whose negative every one is zero. -/
def decimalBound : Int := 400

/-- The binary64 number nearest to the decimal `digits * 10 ^ scale`. Where the leading digit
stands far outside of the range of finite numbers, the power is not computed. -/
def ofDecimal (negative : Bool) (digits : Nat) (scale : Int) : Binary64 :=
  let leading : Int := scale + (Nat.toDigits 10 digits).length
  if digits = 0 ∨ leading < -decimalBound then zero negative
  else if decimalBound < leading then .infinite negative
  else ofRatio negative (digits * raised 10 scale) (raised 10 (-scale))

/-- Nanoseconds in a second. -/
def nanosPerSecond : Nat := 1000000000

/-- A number of seconds, at least zero, in whole nanoseconds: the nearest, a tie to the even one.
None for a NaN and from `2 ^ 64` seconds on. -/
def toNanos? : Binary64 → Option Nat
  | .finite false significand exponent =>
    let numerator := significand * raised 2 exponent
    let denominator := raised 2 (-exponent)
    if numerator < UInt64.size * denominator then
      some (roundEven (numerator * nanosPerSecond) denominator)
    else none
  | .finite true 0 _ => some 0
  | _ => none

end Binary64

end DeadDrop
