import DeadDrop.Toml.Quoted
import DeadDrop.Toml.Scalar

/-!
# Flat TOML documents

A document here is a list of settings, one to a line: a key, an equals sign and a scalar. Settings
live at the root and have scalar values, so documents with tables, arrays, dates or dotted keys
are refused, and so is a document that sets a key twice.

The reader takes one character at a time and keeps the place where it stands.
-/

namespace DeadDrop.Toml

inductive Place where
  /-- In front of a key, or on an empty line. -/
  | lineStart
  | comment
  /-- Behind a carriage return, where a line feed has to follow. -/
  | carriage
  | bareKey (reversed : Text)
  | quotedKey (mark : Char) (state : StringState)
  /-- Behind a key, where the equals sign has to follow. -/
  | keyEnd (key : Text)
  | valueStart (key : Text)
  | bareValue (key reversed : Text)
  | quotedValue (key : Text) (mark : Char) (state : StringState)
  /-- Behind a value, where only a comment may follow. -/
  | valueEnd
  deriving DecidableEq, Repr

/-- How far a document has been read: the settings so far, in order, and the place. -/
structure Reader where
  settings : List (Text × Scalar)
  place : Place
  deriving DecidableEq, Repr

namespace Reader

def start : Reader := { settings := [], place := .lineStart }

def moved (r : Reader) (place : Place) : Reader := { r with place }

/-- The reader behind a setting. A key may be set once. -/
def setting? (r : Reader) (key : Text) (value : Scalar) : Option Reader :=
  if r.settings.any fun entry => decide (entry.1 = key) then none
  else some { settings := r.settings ++ [(key, value)], place := .valueEnd }

/-- Whether a character may stand in a key without quotes. -/
def isKeyChar (c : Char) : Bool := c.isAlphanum || c = '_' || c = '-'

def isMark (c : Char) : Bool := c = '"' || c = '\''

/-- Reads a character behind a value or a line: blanks, a comment, or the end of the line. -/
def lineEndStep (r : Reader) (c : Char) : Option Reader :=
  if isBlank c then some r
  else if c = '#' then some (r.moved .comment)
  else if c = '\n' then some (r.moved .lineStart)
  else if c = '\r' then some (r.moved .carriage)
  else none

def keyEndStep (r : Reader) (key : Text) (c : Char) : Option Reader :=
  if isBlank c then some (r.moved (.keyEnd key))
  else if c = '=' then some (r.moved (.valueStart key))
  else none

def bareValueEnd? (r : Reader) (key reversed : Text) : Option Reader :=
  (Scalar.ofBare? reversed.reverse).bind (r.setting? key)

def isLong : StringState → Bool
  | .start => true
  | _ => false

/-- Reads one character. A key in quotes cannot be multi-line. -/
def step (r : Reader) (c : Char) : Option Reader :=
  match r.place with
  | .lineStart =>
    if isKeyChar c then some (r.moved (.bareKey [c]))
    else if isMark c then some (r.moved (.quotedKey c (.opening 1)))
    else r.lineEndStep c
  | .comment =>
    if c = '\n' || c = '\r' then r.lineEndStep c
    else if isPlainChar c then some r
    else none
  | .carriage => if c = '\n' then some (r.moved .lineStart) else none
  | .bareKey reversed =>
    if isKeyChar c then some (r.moved (.bareKey (c :: reversed)))
    else r.keyEndStep reversed.reverse c
  | .quotedKey mark state =>
    match state.step mark c with
    | none => none
    | some (.more state) => if isLong state then none else some (r.moved (.quotedKey mark state))
    | some (.last key) => some (r.moved (.keyEnd key))
    | some (.before key) => r.keyEndStep key c
  | .keyEnd key => r.keyEndStep key c
  | .valueStart key =>
    if isBlank c then some r
    else if isMark c then some (r.moved (.quotedValue key c (.opening 1)))
    else if isPlainChar c && c ≠ '#' then some (r.moved (.bareValue key [c]))
    else none
  | .bareValue key reversed =>
    if isBlank c || c = '#' || c = '\n' || c = '\r' then
      (r.bareValueEnd? key reversed).bind fun r => r.lineEndStep c
    else some (r.moved (.bareValue key (c :: reversed)))
  | .quotedValue key mark state =>
    match state.step mark c with
    | none => none
    | some (.more state) => some (r.moved (.quotedValue key mark state))
    | some (.last text) => r.setting? key (.string text)
    | some (.before text) => (r.setting? key (.string text)).bind fun r => r.lineEndStep c
  | .valueEnd => r.lineEndStep c

/-- The settings of a document that ends where the reader stands. -/
def finish? (r : Reader) : Option (List (Text × Scalar)) :=
  match r.place with
  | .lineStart | .comment | .valueEnd => some r.settings
  | .bareValue key reversed => (r.bareValueEnd? key reversed).map Reader.settings
  | .quotedValue key mark state =>
    ((state.atEnd? mark).bind fun text => r.setting? key (.string text)).map Reader.settings
  | .carriage | .bareKey _ | .quotedKey _ _ | .keyEnd _ | .valueStart _ => none

end Reader

/-- The settings of a document, in order. A byte order mark in front is skipped. -/
def settings? (t : Text) : Option (List (Text × Scalar)) :=
  ((Text.withoutStart t ['\uFEFF']).foldlM Reader.step Reader.start).bind Reader.finish?

end DeadDrop.Toml
