import DeadDrop.Text.Blank

/-!
# Durations

A retention time is written as numbers with units, as in `1h30m`: a total of seconds. White space
around the text is ignored, and so is a blank anywhere in it, even between the digits of a number.
-/

namespace DeadDrop.Duration

/-- Why a text is no duration. Each cause but the first quotes the text it was found in. -/
inductive ParseError where
  | empty
  | badCharacter (found : Char) (input : Text)
  | missingNumber (unit : Char) (input : Text)
  | badNumber (input : Text)
  | tooLarge (input : Text)
  | missingUnit (input : Text)
  | zero (input : Text)
  deriving DecidableEq, Repr

def ParseError.message : ParseError → Text
  | .empty => "duration cannot be empty".toList
  | .badCharacter found input =>
    "invalid character '".toList ++ found :: "' in duration '".toList ++ input ++
      "'. Valid units: s, m, h, d".toList
  | .missingNumber unit input =>
    "missing number before '".toList ++ unit :: "' in duration '".toList ++ input ++ ['\'']
  | .badNumber input =>
    "invalid number in duration '".toList ++ input ++
      "': number too large to fit in target type".toList
  | .tooLarge input => "duration '".toList ++ input ++ "' is too large".toList
  | .missingUnit input =>
    "duration '".toList ++ input ++
      "' ends with a number without unit. Use s, m, h or d".toList
  | .zero input => "duration '".toList ++ input ++ "' evaluates to zero".toList

/-- One more than the largest number of seconds. -/
def limit : Nat := UInt64.size

/-- The seconds in one unit, by its letter in either case. -/
def unitSeconds? : Char → Option Nat
  | 's' | 'S' => some 1
  | 'm' | 'M' => some 60
  | 'h' | 'H' => some 3600
  | 'd' | 'D' => some 86400
  | _ => none

/-- Reads the rest of a duration, with the total so far and the number that is being read, if one
has begun. Numbers, products and sums past the limit are refused where a unit makes them count. -/
def parseFrom (input : Text) (total : Nat) (pending : Option Nat) : Text → Except ParseError Nat
  | [] => if pending.isNone then .ok total else .error (.missingUnit input)
  | c :: rest =>
    match Text.digit? c with
    | some digit => parseFrom input total (some (pending.getD 0 * 10 + digit)) rest
    | none =>
      if c = ' ' then parseFrom input total pending rest
      else
        match unitSeconds? c, pending with
        | none, _ => .error (.badCharacter c input)
        | some _, none => .error (.missingNumber c input)
        | some seconds, some number =>
          if limit ≤ number then .error (.badNumber input)
          else if limit ≤ total + number * seconds then .error (.tooLarge input)
          else parseFrom input (total + number * seconds) none rest

/-- The number of seconds that a text denotes, between 1 and the largest. -/
def parse (text : Text) : Except ParseError Nat :=
  let input := text.trim Text.isBlank
  if input.isEmpty then .error .empty
  else
    match parseFrom input 0 none input with
    | .error e => .error e
    | .ok total => if total = 0 then .error (.zero input) else .ok total

end DeadDrop.Duration
