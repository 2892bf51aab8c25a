import DeadDrop.Json.Quoted

/-!
# Tokens of JSON objects

A stored record is a JSON text whose values are strings and objects only, so five kinds of token
are enough: the four marks of an object and a string. Numbers, arrays and literal names begin with
characters that begin no token here, so a text that has them is refused.

The lexer reads one character at a time and keeps where it stands: between tokens, in a string, or
in one of the parts of an escape.
-/

namespace DeadDrop.Json

/-- A token of a JSON text made of objects and strings. -/
inductive Token where
  | opening
  | closing
  | colon
  | comma
  | string (text : Text)
  deriving DecidableEq, Repr

/-- Where the lexer stands. The text of an unfinished string is kept in reverse. -/
inductive LexMode where
  /-- Between two tokens. -/
  | between
  /-- Inside of a string. -/
  | string (reversed : Text)
  /-- Behind the reverse solidus of an escape. -/
  | escape (reversed : Text)
  /-- Inside of a numeric escape, with the digits still owed (at least one) and the value so far;
  `high` is the surrogate that stands in front of this escape, if any. -/
  | code (reversed : Text) (high : Option Nat) (owed value : Nat)
  /-- Behind a high surrogate, where a reverse solidus has to follow. -/
  | pairSolidus (reversed : Text) (high : Nat)
  /-- Behind a high surrogate and a reverse solidus, where the letter `u` has to follow. -/
  | pairLetter (reversed : Text) (high : Nat)
  deriving DecidableEq, Repr

/-- The character of an escape by one letter. -/
def letterEscape? : Char → Option Char
  | '"' => some '"'
  | '\\' => some '\\'
  | '/' => some '/'
  | 'b' => some '\x08'
  | 'f' => some '\x0c'
  | 'n' => some '\n'
  | 'r' => some '\r'
  | 't' => some '\t'
  | _ => none

/-- Where the lexer stands behind a finished numeric escape: a surrogate has to come in a pair, the
high one first. -/
def endCode (reversed : Text) : Option Nat → Nat → Option LexMode
  | none, value =>
    if 0xD800 ≤ value ∧ value < 0xDC00 then some (.pairSolidus reversed value)
    else if 0xDC00 ≤ value ∧ value < 0xE000 then none
    else some (.string (Char.ofNat value :: reversed))
  | some high, low =>
    if 0xDC00 ≤ low ∧ low < 0xE000 then
      some (.string
        (Char.ofNat (0x10000 + (high - 0xD800) * 0x400 + (low - 0xDC00)) :: reversed))
    else none

/-- What reading one character does: the mode after it, and the token that it ends, if any. -/
def lexStep : LexMode → Char → Option (LexMode × Option Token)
  | .between, c =>
    if c = ' ' ∨ c = '\t' ∨ c = '\n' ∨ c = '\r' then some (.between, none)
    else if c = '\x7b' then some (.between, some .opening)
    else if c = '\x7d' then some (.between, some .closing)
    else if c = ':' then some (.between, some .colon)
    else if c = ',' then some (.between, some .comma)
    else if c = '"' then some (.string [], none)
    else none
  | .string reversed, c =>
    if c = '"' then some (.between, some (.string reversed.reverse))
    else if c = '\\' then some (.escape reversed, none)
    else if c.toNat < 0x20 then none
    else some (.string (c :: reversed), none)
  | .escape reversed, c =>
    if c = 'u' then some (.code reversed none 4 0, none)
    else (letterEscape? c).map fun e => (.string (e :: reversed), none)
  | .code reversed high owed value, c =>
    (Hex.digit? c).bind fun digit =>
      if owed ≤ 1 then (endCode reversed high (value * 16 + digit)).map (·, none)
      else some (.code reversed high (owed - 1) (value * 16 + digit), none)
  | .pairSolidus reversed high, c =>
    if c = '\\' then some (.pairLetter reversed high, none) else none
  | .pairLetter reversed high, c =>
    if c = 'u' then some (.code reversed (some high) 4 0, none) else none

/-- The tokens of a text, from a mode on. A text may end between tokens only. -/
def lexFrom : LexMode → Text → Option (List Token)
  | .between, [] => some []
  | _, [] => none
  | mode, c :: rest =>
    match lexStep mode c with
    | none => none
    | some (next, none) => lexFrom next rest
    | some (next, some token) => (lexFrom next rest).map (token :: ·)

def lex (t : Text) : Option (List Token) := lexFrom .between t

end DeadDrop.Json
