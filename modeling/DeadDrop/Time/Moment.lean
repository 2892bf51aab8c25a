import DeadDrop.Time.Calendar

/-!
# Moments

A moment is a point on the UTC time line, and its text is that of RFC 3339: a date, a time of day
and an offset. A leap second is kept as the second before it with a billion nanoseconds or more,
and written as second 60.
-/

namespace DeadDrop

/-- Seconds since 1970-01-01T00:00:00Z and nanoseconds; a billion nanoseconds or more mean the leap
second that follows a minute's last second. -/
structure Moment where
  seconds : Int
  nanos : Nat
  deriving DecidableEq, Repr

namespace Moment

/-- Nanoseconds in a second. -/
def billion : Nat := 1000000000

/-- Seconds in a day. -/
def daySeconds : Int := 86400

/-- The moment so many nanoseconds after 1970-01-01T00:00:00Z. -/
def ofUnixNanos (nanos : Int) : Moment :=
  { seconds := nanos / billion, nanos := (nanos % billion).toNat }

/-- Whether a moment can be held: its year is between -262143 and 262142, and a leap second comes
at the end of a minute only. -/
def IsRepresentable (m : Moment) : Prop :=
  -8334601228800 ≤ m.seconds ∧ m.seconds ≤ 8210266876799 ∧
    (m.nanos < billion ∨ m.nanos < 2 * billion ∧ m.seconds % 60 = 59)

instance (m : Moment) : Decidable m.IsRepresentable := by unfold IsRepresentable; infer_instance

/-- The moment without the part below a second; a leap second stays one. -/
def truncate (m : Moment) : Moment :=
  { m with nanos := if m.nanos < billion then 0 else billion }

/-- A year as text: four digits, and outside of 0 to 9999 a sign in front. -/
def yearText (year : Int) : Text :=
  if year < 0 then '-' :: Text.padded 4 (-year).toNat
  else if 9999 < year then '+' :: Text.padded 4 year.toNat
  else Text.padded 4 year.toNat

/-- Date and time of day, to the second. -/
def dateTimeText (m : Moment) : Text :=
  let date := Date.ofDays (m.seconds / daySeconds)
  let ofDay := (m.seconds % daySeconds).toNat
  let second := ofDay % 60 + (if m.nanos < billion then 0 else 1)
  yearText date.year ++ '-' :: Text.padded 2 date.month ++ '-' :: Text.padded 2 date.day ++
    'T' :: Text.padded 2 (ofDay / 3600) ++ ':' :: Text.padded 2 (ofDay / 60 % 60) ++
    ':' :: Text.padded 2 second

/-- The text of a moment with second precision, as in `2024-01-02T03:04:05Z`. -/
def toSecondsText (m : Moment) : Text := dateTimeText m ++ ['Z']

/-- The part below a second, with the fewest of 0, 3, 6 or 9 places that hold it. -/
def fractionText (m : Moment) : Text :=
  let nanos := m.nanos % billion
  if nanos = 0 then []
  else if nanos % 1000000 = 0 then '.' :: Text.padded 3 (nanos / 1000000)
  else if nanos % 1000 = 0 then '.' :: Text.padded 6 (nanos / 1000)
  else '.' :: Text.padded 9 nanos

def toText (m : Moment) : Text := dateTimeText m ++ fractionText m ++ ['Z']

/-! ### Reading -/

def number? (width : Nat) (t : Text) : Option (Nat × Text) :=
  if (t.take width).length = width then
    (Text.toNat? (t.take width)).map (·, t.drop width)
  else none

def mark? (allowed : List Char) : Text → Option Text
  | [] => none
  | c :: rest => if c ∈ allowed then some rest else none

/-- Reads an optional fraction of a second: a point and digits, of which the first nine count. -/
def fraction? : Text → Option (Nat × Text)
  | '.' :: rest =>
    let digits := rest.takeWhile Text.isDigit
    let nine := (digits ++ List.replicate 9 '0').take 9
    if digits.isEmpty then none
    else (Text.toNat? nine).map (·, rest.dropWhile Text.isDigit)
  | t => some (0, t)

/-- Reads an offset from UTC, in seconds: `Z`, or hours and minutes with a sign. -/
def offset? : Text → Option Int
  | ['Z'] | ['z'] => some 0
  | sign :: rest => do
    let (hours, rest) ← number? 2 rest
    let rest ← mark? [':'] rest
    let (minutes, rest) ← number? 2 rest
    if rest.isEmpty && decide (hours < 24) && decide (minutes < 60) then
      let offset : Int := hours * 3600 + minutes * 60
      if sign = '+' then some offset
      else if sign = '-' ∨ sign = '\u2212' then some (-offset)
      else none
    else none
  | [] => none

/-- Reads the text of a moment, as RFC 3339 has it: a `T` in either case or a blank divides date
and time, a second may be 60, and the offset takes the moment to UTC. -/
def ofText? (t : Text) : Option Moment := do
  let (year, t) ← number? 4 t
  let t ← mark? ['-'] t
  let (month, t) ← number? 2 t
  let t ← mark? ['-'] t
  let (day, t) ← number? 2 t
  let t ← mark? ['T', 't', ' '] t
  let (hour, t) ← number? 2 t
  let t ← mark? [':'] t
  let (minute, t) ← number? 2 t
  let t ← mark? [':'] t
  let (second, t) ← number? 2 t
  let (nanos, t) ← fraction? t
  let offset ← offset? t
  let date : Date := { year := year, month, day }
  if date.IsValid ∧ hour < 24 ∧ minute < 60 ∧ second ≤ 60 then
    let ofDay : Int := hour * 3600 + minute * 60 + min second 59
    some
      { seconds := date.toDays * daySeconds + ofDay - offset
        nanos := if second = 60 then nanos + billion else nanos }
  else none

end Moment

end DeadDrop
