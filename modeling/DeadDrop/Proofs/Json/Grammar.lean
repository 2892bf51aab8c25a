import DeadDrop.Text
import Mathlib.Data.List.Forall2

/-!
# The grammar of JSON

What a JSON text is, told without a reader: a value of any kind as a tree, and the texts that spell
it. Blanks may stand around every value, every name and every mark. A character of a string may be
spelled by itself, by a letter behind a reverse solidus or by its code, and beyond U+FFFF by the
codes of its two surrogates; since what is spelled is a character, no surrogate is left alone.

An object keeps its members as they are written, repeated names and all. What the names stand for
is told apart from how they are written: by the last member of a name (`IsLast`).
-/

namespace DeadDrop.Json

/-- A value of any kind. A number is kept as its numeral. -/
inductive Tree where
  | null
  | boolean (value : Bool)
  | number (numeral : Text)
  | string (text : Text)
  | array (elements : List Tree)
  | object (members : List (Text × Tree))

/-! ### Strings -/

/-- A hexadecimal digit in either case, and its value. -/
def HexDigit (c : Char) (value : Nat) : Prop :=
  value < 16 ∧ (c = value.digitChar ∨ c = value.digitChar.toUpper)

def CodeSpelled (code : Nat) (spelling : Text) : Prop :=
  ∃ a b c d, List.Forall₂ HexDigit spelling [a, b, c, d] ∧
    code = ((a * 16 + b) * 16 + c) * 16 + d

/-- The letters that may stand behind a reverse solidus, and the characters they make. -/
def letterEscapes : List (Char × Char) :=
  [('"', '"'), ('\\', '\\'), ('/', '/'), ('b', '\x08'), ('f', '\x0c'), ('n', '\n'), ('r', '\r'),
    ('t', '\t')]

inductive CharSpelled (c : Char) : Text → Prop where
  | plain (noControl : 0x20 ≤ c.toNat) (noQuote : c ≠ '"') (noSolidus : c ≠ '\\') :
    CharSpelled c [c]
  | letter {letter : Char} (escape : (letter, c) ∈ letterEscapes) : CharSpelled c ['\\', letter]
  | code {digits : Text} (code : CodeSpelled c.toNat digits) : CharSpelled c ('\\' :: 'u' :: digits)
  /-- The codes of the high surrogate and of the low one. -/
  | pair {digits digits' : Text} (beyond : 0x10000 ≤ c.toNat)
    (high : CodeSpelled (0xD800 + (c.toNat - 0x10000) / 0x400) digits)
    (low : CodeSpelled (0xDC00 + (c.toNat - 0x10000) % 0x400) digits') :
    CharSpelled c ('\\' :: 'u' :: digits ++ '\\' :: 'u' :: digits')

def CharsSpelled : Text → Text → Prop
  | [], spelling => spelling = []
  | c :: text, spelling =>
    ∃ first rest, CharSpelled c first ∧ CharsSpelled text rest ∧ spelling = first ++ rest

def StringSpelled (text spelling : Text) : Prop :=
  ∃ inside, CharsSpelled text inside ∧ spelling = '"' :: inside ++ ['"']

/-! ### Numbers -/

def IsDigits (t : Text) : Prop := t ≠ [] ∧ ∀ c ∈ t, c.isDigit = true

/-- A numeral: a whole number without leading zeros, perhaps with a minus sign in front of it and a
fraction and an exponent behind it. -/
def IsNumeral (t : Text) : Prop :=
  ∃ sign whole fraction exponent, t = sign ++ whole ++ fraction ++ exponent ∧
    sign ∈ [[], ['-']] ∧
    (whole = ['0'] ∨ IsDigits whole ∧ whole.head? ≠ some '0') ∧
    (fraction = [] ∨ ∃ digits, IsDigits digits ∧ fraction = '.' :: digits) ∧
    (exponent = [] ∨ ∃ mark sign digits, mark ∈ ['e', 'E'] ∧ sign ∈ [[], ['+'], ['-']] ∧
      IsDigits digits ∧ exponent = mark :: sign ++ digits)

/-! ### Values -/

def IsBlank (t : Text) : Prop := ∀ c ∈ t, c ∈ [' ', '\t', '\n', '\r']

/-- A spelling with blanks around it. -/
def Padded (Spelled : Text → Prop) (t : Text) : Prop :=
  ∃ before inside after, IsBlank before ∧ Spelled inside ∧ IsBlank after ∧
    t = before ++ inside ++ after

/-- What stands behind an element or a member: nothing behind the last one, and else a comma and the
others. -/
def Continued (last : Bool) (OthersSpelled : Text → Prop) (t : Text) : Prop :=
  if last then t = [] else ∃ others, OthersSpelled others ∧ t = ',' :: others

mutual

def Tree.Spelled : Tree → Text → Prop
  | .null, t => t = "null".toList
  | .boolean value, t => t = (if value then "true" else "false").toList
  | .number numeral, t => IsNumeral numeral ∧ t = numeral
  | .string text, t => StringSpelled text t
  | .array elements, t =>
    ∃ inside, Tree.elementsSpelled elements inside ∧ t = '[' :: inside ++ [']']
  | .object members, t =>
    ∃ inside, Tree.membersSpelled members inside ∧ t = '\x7b' :: inside ++ ['\x7d']

def Tree.elementsSpelled : List Tree → Text → Prop
  | [], t => IsBlank t
  | tree :: rest, t => ∃ value more, Padded tree.Spelled value ∧
      Continued rest.isEmpty (Tree.elementsSpelled rest) more ∧ t = value ++ more

def Tree.membersSpelled : List (Text × Tree) → Text → Prop
  | [], t => IsBlank t
  | (name, tree) :: rest, t => ∃ key value more, Padded (StringSpelled name) key ∧
      Padded tree.Spelled value ∧ Continued rest.isEmpty (Tree.membersSpelled rest) more ∧
      t = key ++ ':' :: value ++ more

end

/-- A JSON text is a value with blanks around it, and nothing else. -/
def Tree.IsTextOf (tree : Tree) (t : Text) : Prop := Padded tree.Spelled t

/-! ### Strings and objects -/

/-- Every value, at every depth, is a string or an object, also those of repeated names. -/
inductive Tree.OfTexts : Tree → Prop where
  | string (text : Text) : OfTexts (.string text)
  | object {members : List (Text × Tree)} (nested : ∀ member ∈ members, member.2.OfTexts) :
    OfTexts (.object members)

mutual

/-- The number of objects inside of one another. -/
def Tree.depth : Tree → Nat
  | .array elements => Tree.elementsDepth elements
  | .object members => Tree.membersDepth members + 1
  | _ => 0

def Tree.elementsDepth : List Tree → Nat
  | [] => 0
  | tree :: rest => max tree.depth (Tree.elementsDepth rest)

def Tree.membersDepth : List (Text × Tree) → Nat
  | [] => 0
  | (_, tree) :: rest => max tree.depth (Tree.membersDepth rest)

end

/-- The member with this tree is the last one of the name. -/
def IsLast (name : Text) (tree : Tree) (members : List (Text × Tree)) : Prop :=
  ∃ before behind, members = before ++ (name, tree) :: behind ∧
    ∀ member ∈ behind, member.1 ≠ name

end DeadDrop.Json
