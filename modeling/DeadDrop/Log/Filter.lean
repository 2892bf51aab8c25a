import DeadDrop.Log

/-!
# Log filters

Which events are shown. A filter is a list of directives divided by commas: a level for all targets,
a target for all of its events, or `target=level`. Of the directives that name a beginning of an
event's target, the longest decides.
-/

namespace DeadDrop

/-- A directive: the beginning of the targets it is for, and how many levels are shown, from none
for 0 over errors for 1 to everything for 5. -/
structure LogDirective where
  target : Text
  levels : Nat
  deriving DecidableEq, Repr

/-- Directives; for each beginning there is one at most. -/
structure LogFilter where
  directives : List LogDirective
  deriving DecidableEq, Repr

/-- How many levels have to be shown for this one to be seen. -/
def LogLevel.rank : LogLevel → Nat
  | .error => 1
  | .warn => 2
  | .info => 3

namespace LogFilter

/-- The filter for information and all that is more serious. -/
def informative : LogFilter := ⟨[⟨[], 3⟩]⟩

/-- Reads how many levels are shown: a number from 0 to 5, or a word in any case. -/
def levels? (t : Text) : Option Nat :=
  match String.ofList (Text.lowerCase t) with
  | "off" => some 0
  | "error" => some 1
  | "warn" => some 2
  | "info" => some 3
  | "debug" => some 4
  | "trace" => some 5
  | _ => (Text.toNat? (Text.withoutStart t ['+'])).bind fun n => if n ≤ 5 then some n else none

def isTargetStart (c : Char) : Bool := c.isAlphanum || c = '_' || c = ':' || c = '-'

/-- Whether a text has a character to begin a directive with, and none that asks for spans. -/
def isTarget (t : Text) : Bool := (t.head?.map isTargetStart).getD false && !t.contains '['

/-- Reads a directive. Blanks belong to it, and a blank in front of a level is wrong. -/
def directive? (t : Text) : Option LogDirective :=
  match Text.cut '=' t with
  | (_, none) =>
    if !isTarget (t.dropWhile fun c => decide (c = ' ')) then none
    else
      match levels? t with
      | some levels => some { target := [], levels }
      | none => some { target := t, levels := 5 }
  | (target, some level) =>
    if !isTarget target then none
    else if level.isEmpty then some { target, levels := 5 }
    else (levels? level).map fun levels => { target, levels }

/-- A filter with one more directive, in place of an earlier one for the same beginning. -/
def add (filter : LogFilter) (directive : LogDirective) : LogFilter :=
  ⟨filter.directives.filter (fun d => decide (d.target ≠ directive.target)) ++ [directive]⟩

/-- Reads a filter. Without any directive, errors are shown. -/
def ofText? (t : Text) : Option LogFilter :=
  let parts := (Text.splitOn ',' t).filter fun part => !part.isEmpty
  (parts.mapM directive?).map fun directives =>
    if directives.isEmpty then ⟨[⟨[], 1⟩]⟩ else directives.foldl add ⟨[]⟩

/-- The filter that is set by a text, if one is set: a text that is no filter sets none. -/
def ofSetting (setting : Option Text) : LogFilter :=
  (setting.bind ofText?).getD informative

def longer (best : Option LogDirective) (d : LogDirective) : Option LogDirective :=
  match best with
  | none => some d
  | some b => if b.target.length < d.target.length then some d else some b

def shows (filter : LogFilter) (event : LogEvent) : Bool :=
  match (filter.directives.filter fun d => d.target.isPrefixOf event.target).foldl longer none with
  | none => false
  | some d => event.level.rank ≤ d.levels

end LogFilter

end DeadDrop
