import DeadDrop.Assoc
import DeadDrop.Store.Row

/-!
# The row backend

A table of rows, each the bytes of one value. Rows expire on the wall clock, to the millisecond. The
clock is asked only where a row has an expiry, and a call that fails changes no row: bytes that are
too short for a row fail a read of their key and are left alone by a sweep.
-/

namespace DeadDrop

structure Rows where
  table : Table Text Bytes

namespace Rows

def empty : Rows := ⟨Table.empty⟩

def put (key : Text) (b : Bytes) (rows : Rows) : Rows := ⟨rows.table.insert key b⟩

/-- The live value under a key; a row whose time is over is removed on the way. -/
def read (clock : Clock) (key : Text) : Action Rows StorageFault (Option Bytes) := fun rows =>
  match rows.table.get? key with
  | none => (.ok none, rows)
  | some b =>
    match Row.decode? b with
    | none => (.error (.shortRow key b.length), rows)
    | some row =>
      if row.expiry.isNone then (.ok (some row.value), rows)
      else
        match Row.millisOf clock with
        | .error fault => (.error fault, rows)
        | .ok now =>
          if row.isOver now then (.ok none, ⟨rows.table.erase key⟩)
          else (.ok (some row.value), rows)

def write (clock : Clock) (key : Text) (value : Bytes) (ttl : Option Nat) :
    Action Rows StorageFault Unit := fun rows =>
  let row : Except StorageFault Row :=
    match ttl with
    | none => .ok (Row.forGood value)
    | some ttl => Row.withTtl clock value ttl
  match row with
  | .error fault => (.error fault, rows)
  | .ok row => (.ok (), rows.put key row.encode)

/-- Removes a key; a row whose time is over counts as held, and so does one too short to read. -/
def remove (key : Text) : Action Rows StorageFault Bool := fun rows =>
  (.ok (rows.table.contains key), ⟨rows.table.erase key⟩)

def mayExpire (b : Bytes) : Bool :=
  match Row.decode? b with
  | some row => row.expiry.isSome
  | none => false

def isOver (now : Nat) (b : Bytes) : Bool :=
  match Row.decode? b with
  | some row => row.isOver now
  | none => false

def sweep (clock : Clock) : Action Rows StorageFault Nat := fun rows =>
  if rows.table.entries.any fun entry => mayExpire entry.2 then
    match Row.millisOf clock with
    | .error fault => (.error fault, rows)
    | .ok now =>
      let kept := rows.table.filter fun _ b => !isOver now b
      (.ok (rows.table.size - kept.size), ⟨kept⟩)
  else (.ok 0, rows)

instance : Backend Rows where
  read := read
  write := write
  remove _ := remove
  sweep := sweep

end Rows

end DeadDrop
