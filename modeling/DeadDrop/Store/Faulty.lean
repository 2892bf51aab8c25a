import DeadDrop.Store.Memory
import DeadDrop.Store.Rows

/-!
# Backends that fail on demand

A backend behind a switch for each of its operations. An operation that is switched off fails and
does nothing. The sweeps that were asked for are counted, whether they failed or not.
-/

namespace DeadDrop

inductive BackendOperation where
  | read
  | write
  | remove
  | sweep
  deriving DecidableEq, Repr

/-- A backend, the operations that are switched off with the reason each gives, and the number of
sweeps that were asked for. -/
structure Faulty (σ : Type) where
  inner : σ
  off : List (BackendOperation × Text)
  sweeps : Nat

namespace Faulty

variable {σ : Type}

def ofBackend (inner : σ) : Faulty σ := { inner, off := [], sweeps := 0 }

/-- Runs an operation of the backend inside, unless it is switched off. -/
def guarded {α : Type} (operation : BackendOperation) (action : Action σ StorageFault α) :
    Action (Faulty σ) StorageFault α := fun f =>
  match f.off.find? (fun entry => decide (entry.1 = operation)) with
  | some entry => (.error (.refused entry.2), f)
  | none => ((action f.inner).1, { f with inner := (action f.inner).2 })

instance [Backend σ] : Backend (Faulty σ) where
  read clock key := guarded .read (Backend.read clock key)
  write clock key value ttl := guarded .write (Backend.write clock key value ttl)
  remove clock key := guarded .remove (Backend.remove clock key)
  sweep clock := fun f =>
    guarded .sweep (Backend.sweep clock) { f with sweeps := f.sweeps + 1 }

end Faulty

/-- The storage of a service: one of the two backends, or a memory backend behind switches. -/
inductive Storage where
  | memory (m : Memory)
  | rows (r : Rows)
  | faulty (f : Faulty Memory)

namespace Storage

/-- Runs the same operation on whichever backend there is. -/
def dispatch {α : Type} (onMemory : Action Memory StorageFault α)
    (onRows : Action Rows StorageFault α) (onFaulty : Action (Faulty Memory) StorageFault α) :
    Action Storage StorageFault α
  | .memory m => ((onMemory m).1, .memory (onMemory m).2)
  | .rows r => ((onRows r).1, .rows (onRows r).2)
  | .faulty f => ((onFaulty f).1, .faulty (onFaulty f).2)

instance : Backend Storage where
  read clock key :=
    dispatch (Backend.read clock key) (Backend.read clock key) (Backend.read clock key)
  write clock key value ttl :=
    dispatch (Backend.write clock key value ttl) (Backend.write clock key value ttl)
      (Backend.write clock key value ttl)
  remove clock key :=
    dispatch (Backend.remove clock key) (Backend.remove clock key) (Backend.remove clock key)
  sweep clock := dispatch (Backend.sweep clock) (Backend.sweep clock) (Backend.sweep clock)

end Storage

end DeadDrop
