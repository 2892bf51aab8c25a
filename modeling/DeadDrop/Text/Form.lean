import DeadDrop.Text.Percent
import DeadDrop.Text.Utf8

/-!
# Form data

A query string carries pairs of a name and a value: `&` divides the pairs and the first `=` of a
pair divides its two halves. In both halves `+` is a blank and percent escapes spell octets, which
are read as UTF-8 with U+FFFD for whatever is ill-formed.
-/

namespace DeadDrop.Form

def decodeHalf (t : Text) : Text :=
  Text.ofUtf8Lossy (Percent.decode (Text.toUtf8 (t.map fun c => if c = '+' then ' ' else c)))

def decodePair (t : Text) : Text × Text :=
  let (name, value) := Text.cut '=' t
  (decodeHalf name, decodeHalf (value.getD []))

/-- The pairs of a query string, in order. Empty pieces are no pairs. -/
def decode (query : Text) : List (Text × Text) :=
  ((Text.splitOn '&' query).filter fun piece => !piece.isEmpty).map decodePair

end DeadDrop.Form
