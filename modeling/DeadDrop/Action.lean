/-!
# Actions

A call on a stateful part ends with a value, with an error, or by an abort, and in each case it
leaves a state behind. An abort is what becomes of a call that meets a time which the clocks cannot
represent: it has no answer, and it is no error that a client could be told about.
-/

namespace DeadDrop

inductive Outcome (ε α : Type) where
  | ok (value : α)
  | error (reason : ε)
  | abort
  deriving DecidableEq, Repr

namespace Outcome

variable {ε δ α β : Type}

def bind (o : Outcome ε α) (next : α → Outcome ε β) : Outcome ε β :=
  match o with
  | .ok value => next value
  | .error reason => .error reason
  | .abort => .abort

def map (f : α → β) : Outcome ε α → Outcome ε β
  | .ok value => .ok (f value)
  | .error reason => .error reason
  | .abort => .abort

def mapError (f : ε → δ) : Outcome ε α → Outcome δ α
  | .ok value => .ok value
  | .error reason => .error (f reason)
  | .abort => .abort

def ofExcept : Except ε α → Outcome ε α
  | .ok value => .ok value
  | .error reason => .error reason

end Outcome

/-- A call on a state: its outcome and the state after it. -/
def Action (σ ε α : Type) : Type := σ → Outcome ε α × σ

namespace Action

variable {σ ε δ α β : Type}

def done (o : Outcome ε α) : Action σ ε α := fun s => (o, s)

def fail (reason : ε) : Action σ ε α := done (.error reason)

/-- Runs a second call on the state that the first one leaves, if the first one ends with a
value. -/
def andThen (first : Action σ ε α) (next : α → Action σ ε β) : Action σ ε β := fun s =>
  match first s with
  | (.ok value, s') => next value s'
  | (.error reason, s') => (.error reason, s')
  | (.abort, s') => (.abort, s')

instance : Monad (Action σ ε) where
  pure value := done (.ok value)
  bind := andThen

def mapError (f : ε → δ) (action : Action σ ε α) : Action σ δ α := fun s =>
  ((action s).1.mapError f, (action s).2)

end Action

end DeadDrop
