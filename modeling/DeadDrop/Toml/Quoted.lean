import DeadDrop.Text.Hex

/-!
# TOML strings

A string stands between quotation marks or apostrophes, one at each end or three. Three make it
multi-line: it may hold line ends, and a line end right behind the opening is dropped. Quotation
marks allow for escapes, among them a reverse solidus at the end of a line, which drops all blanks
and line ends up to the next character.

The reader takes one character at a time. Where a string ends may only be seen from the character
behind it, so reading one character has three results: the string goes on, it ends with the
character, or it has ended in front of it.
-/

namespace DeadDrop.Toml

/-- Whether a character may stand in a string or a comment: a tabulator, or anything that is not a
control character. -/
def isPlainChar (c : Char) : Bool := c = '\t' || (0x20 ≤ c.toNat && c.toNat ≠ 0x7F)

def isBlank (c : Char) : Bool := c = ' ' || c = '\t'

/-- How far a string has been read. Its text is kept in reverse; `long` tells a multi-line
string. -/
inductive StringState where
  /-- One or two opening marks, and nothing else. -/
  | opening (marks : Nat)
  /-- Right behind three opening marks. -/
  | start
  | inside (long : Bool) (reversed : Text)
  /-- In a multi-line string, behind marks that may be closing ones. -/
  | closing (reversed : Text) (marks : Nat)
  /-- Behind a carriage return, where a line feed has to follow; `kept` tells whether this line end
  belongs to the text. -/
  | carriage (reversed : Text) (kept : Bool)
  | escape (long : Bool) (reversed : Text)
  /-- In a numeric escape, with the digits still owed (at least one) and the value so far. -/
  | code (long : Bool) (reversed : Text) (owed value : Nat)
  /-- Behind a reverse solidus at the end of a line, whose line end may still be to come. -/
  | folded (reversed : Text) (lineEnded : Bool)
  /-- As `folded`, behind a carriage return. -/
  | foldedCarriage (reversed : Text)
  deriving DecidableEq, Repr

inductive StringStep where
  | more (state : StringState)
  /-- The character is the last one of the string. -/
  | last (text : Text)
  /-- The string has ended in front of the character. -/
  | before (text : Text)
  deriving DecidableEq, Repr

/-- The character of an escape by one letter. -/
def letterEscape? : Char → Option Char
  | 'b' => some '\x08'
  | 't' => some '\t'
  | 'n' => some '\n'
  | 'f' => some '\x0c'
  | 'r' => some '\r'
  | 'e' => some '\x1b'
  | '"' => some '"'
  | '\\' => some '\\'
  | _ => none

/-- The number of digits of a numeric escape. -/
def codeDigits? : Char → Option Nat
  | 'x' => some 2
  | 'u' => some 4
  | 'U' => some 8
  | _ => none

/-- The character with a code, if it is the code of a character. -/
def charOfCode? (value : Nat) : Option Char :=
  if value.isValidChar then some (Char.ofNat value) else none

namespace StringState

/-- Reads a character that is neither part of an escape nor of a line end. -/
def insideStep (mark : Char) (long : Bool) (reversed : Text) (c : Char) : Option StringStep :=
  if c = mark then
    some (if long then .more (.closing reversed 1) else .last reversed.reverse)
  else if c = '\\' ∧ mark = '"' then some (.more (.escape long reversed))
  else if c = '\n' then if long then some (.more (.inside true (c :: reversed))) else none
  else if c = '\r' then if long then some (.more (.carriage reversed true)) else none
  else if isPlainChar c then some (.more (.inside long (c :: reversed)))
  else none

/-- Reads the letter of an escape. -/
def escapeStep (long : Bool) (reversed : Text) (c : Char) : Option StringStep :=
  match letterEscape? c, codeDigits? c with
  | some e, _ => some (.more (.inside long (e :: reversed)))
  | none, some owed => some (.more (.code long reversed owed 0))
  | none, none =>
    if !long then none
    else if isBlank c then some (.more (.folded reversed false))
    else if c = '\n' then some (.more (.folded reversed true))
    else if c = '\r' then some (.more (.foldedCarriage reversed))
    else none

def step (mark : Char) : StringState → Char → Option StringStep
  | .opening marks, c =>
    if c = mark then some (.more (if marks ≤ 1 then .opening 2 else .start))
    else if marks ≤ 1 then insideStep mark false [] c
    else some (.before [])
  | .start, c =>
    if c = '\n' then some (.more (.inside true []))
    else if c = '\r' then some (.more (.carriage [] false))
    else insideStep mark true [] c
  | .inside long reversed, c => insideStep mark long reversed c
  | .closing reversed marks, c =>
    if c = mark then
      if marks < 4 then some (.more (.closing reversed (marks + 1)))
      else some (.last (mark :: mark :: reversed).reverse)
    else if marks < 3 then insideStep mark true (List.replicate marks mark ++ reversed) c
    else some (.before (List.replicate (marks - 3) mark ++ reversed).reverse)
  | .carriage reversed kept, c =>
    if c = '\n' then
      some (.more (.inside true (if kept then '\n' :: '\r' :: reversed else reversed)))
    else none
  | .escape long reversed, c => escapeStep long reversed c
  | .code long reversed owed value, c =>
    (Hex.digit? c).bind fun digit =>
      if owed ≤ 1 then
        (charOfCode? (value * 16 + digit)).map fun e => .more (.inside long (e :: reversed))
      else some (.more (.code long reversed (owed - 1) (value * 16 + digit)))
  | .folded reversed lineEnded, c =>
    if isBlank c then some (.more (.folded reversed lineEnded))
    else if c = '\n' then some (.more (.folded reversed true))
    else if c = '\r' then some (.more (.foldedCarriage reversed))
    else if lineEnded then insideStep mark true reversed c
    else none
  | .foldedCarriage reversed, c =>
    if c = '\n' then some (.more (.folded reversed true)) else none

def atEnd? (mark : Char) : StringState → Option Text
  | .opening marks => if marks ≤ 1 then none else some []
  | .closing reversed marks =>
    if marks < 3 then none else some (List.replicate (marks - 3) mark ++ reversed).reverse
  | _ => none

end StringState

end DeadDrop.Toml
