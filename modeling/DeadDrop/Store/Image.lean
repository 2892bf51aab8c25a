import DeadDrop.Store.Rows
import DeadDrop.Text.Utf8

/-!
# Images of the row backend

How a table of rows lies in a file: a mark, the number of rows, and for each row the key and the
bytes, both with their lengths in front. The empty file is the table without rows.
-/

namespace DeadDrop.Rows

/-- The bytes that every image begins with. -/
def mark : Bytes := Text.toUtf8 "dead drop rows\n".toList

/-- The number of bytes of a length. -/
def lengthBytes : Nat := 8

def sized (b : Bytes) : Bytes := Bytes.ofNatBE lengthBytes b.length ++ b

def toImage (rows : Rows) : Bytes :=
  mark ++ Bytes.ofNatBE lengthBytes rows.table.size ++
    rows.table.entries.flatMap fun entry => sized (Text.toUtf8 entry.1) ++ sized entry.2

/-- Reads a byte string with its length in front, and gives what stands behind it. -/
def readSized? (b : Bytes) : Option (Bytes × Bytes) :=
  let length := Bytes.toNatBE (b.take lengthBytes)
  let rest := b.drop lengthBytes
  if lengthBytes ≤ b.length ∧ length ≤ rest.length then
    some (rest.take length, rest.drop length)
  else none

/-- Reads a number of rows, up to the end of the bytes. -/
def readRows? : (count : Nat) → Rows → Bytes → Option Rows
  | 0, rows, b => if b.isEmpty then some rows else none
  | count + 1, rows, b => do
    let (key, b) ← readSized? b
    let key ← Text.ofUtf8? key
    let (bytes, b) ← readSized? b
    readRows? count (rows.put key bytes) b

def ofImage? (b : Bytes) : Option Rows :=
  if b.isEmpty then some empty
  else
    match mark.isPrefixOf? b with
    | none => none
    | some b =>
      if lengthBytes ≤ b.length then
        readRows? (Bytes.toNatBE (b.take lengthBytes)) empty (b.drop lengthBytes)
      else none

end DeadDrop.Rows
