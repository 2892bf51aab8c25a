import DeadDrop.Binary64.Basic
import DeadDrop.Text

/-!
# Shortest decimals

The decimal of a binary64 number has as few digits as it takes to read back the same number, and of
those decimals it is the nearest. Of every length from one digit on, the two neighbours of the
number on the decimal grid are tried: if any decimal of that length reads back, one of them does.
-/

namespace DeadDrop.Binary64

/-- A positive decimal `0.d₁d₂… * 10 ^ exponent`, with the first and the last digit not zero. -/
structure Decimal where
  digits : List Char
  exponent : Int
  deriving DecidableEq, Repr

/-- The decimals that round to a number, all over one denominator: the number itself and the ends of
the interval. The ends belong to it if the significand is even. -/
structure Interval where
  low : Nat
  value : Nat
  high : Nat
  denominator : Nat
  closed : Bool

/-- The interval of a positive number. Below a power of two the neighbour is half as far. -/
def intervalOf (significand : Nat) (exponent : Int) : Interval :=
  let scale := raised 2 exponent
  let below :=
    if significand = significandLimit / 2 ∧ leastExponent < exponent then 1 else 2
  { low := (4 * significand - below) * scale
    value := 4 * significand * scale
    high := (4 * significand + 2) * scale
    denominator := 4 * raised 2 (-exponent)
    closed := significand % 2 = 0 }

def Interval.contains (i : Interval) (n : Nat) (power : Int) : Bool :=
  let scaled := n * raised 10 power * i.denominator
  let ten := raised 10 (-power)
  if i.closed then decide (i.low * ten ≤ scaled) && decide (scaled ≤ i.high * ten)
  else decide (i.low * ten < scaled) && decide (scaled < i.high * ten)

/-- The least exponent `k` with `value < 10 ^ k`, between bounds that hold for all numbers. -/
def Interval.decimalExponent (i : Interval) : Int :=
  let candidates := (List.range 640).map fun (n : Nat) => (n : Int) - 330
  let above (k : Int) : Bool :=
    decide (i.value * raised 10 (-k) < raised 10 k * i.denominator)
  (candidates.find? above).getD 310

/-- The grid point at or below the number of an interval, and whether the next one is at least as
near. -/
def Interval.below (i : Interval) (power : Int) : Nat × Bool :=
  let numerator := i.value * raised 10 (-power)
  let denominator := i.denominator * raised 10 power
  (numerator / denominator, decide (denominator ≤ 2 * (numerator % denominator)))

/-- The number of an interval on a decimal grid, if one of its two neighbours there is in the
interval. Of two, the nearer counts, and of two equally near the upper. -/
def Interval.onGrid? (i : Interval) (power : Int) : Option Nat :=
  let (down, nearerUp) := i.below power
  match decide (0 < down) && i.contains down power, i.contains (down + 1) power with
  | true, true => some (if nearerUp then down + 1 else down)
  | true, false => some down
  | false, true => some (down + 1)
  | false, false => none

def withoutTrailingZeros (digits : List Char) : List Char :=
  (digits.reverse.dropWhile (· = '0')).reverse

/-- The decimal of a grid point with a number of digits; a carry to the next power of ten moves the
exponent. -/
def Decimal.ofGrid (exponent : Int) (width n : Nat) : Decimal :=
  let digits := Nat.toDigits 10 n
  { digits := withoutTrailingZeros digits, exponent := exponent + digits.length - width }

/-- The first grid with a hit, from a number of digits on. -/
def Interval.search (i : Interval) (exponent : Int) : (fuel width : Nat) → Decimal
  | 0, width => Decimal.ofGrid exponent width (i.below (exponent - width)).1
  | fuel + 1, width =>
    match i.onGrid? (exponent - width) with
    | some n => Decimal.ofGrid exponent width n
    | none => i.search exponent fuel (width + 1)

/-- The shortest decimal of a positive number. Seventeen digits are always enough. -/
def shortest (significand : Nat) (exponent : Int) : Decimal :=
  let i := intervalOf significand exponent
  i.search i.decimalExponent 17 1

end DeadDrop.Binary64
