import DeadDrop.Text.Hex

/-!
# Quoted text

The JSON string that stands for a text. Only what has to be escaped is: the quotation mark, the
reverse solidus and the control characters below U+0020, five of them by a letter and the others by
four lower-case hexadecimal digits.
-/

namespace DeadDrop.Json

def escapeChar (c : Char) : Text :=
  if c = '"' then ['\\', '"']
  else if c = '\\' then ['\\', '\\']
  else if c = '\x08' then ['\\', 'b']
  else if c = '\x0c' then ['\\', 'f']
  else if c = '\n' then ['\\', 'n']
  else if c = '\r' then ['\\', 'r']
  else if c = '\t' then ['\\', 't']
  else if c.toNat < 0x20 then ['\\', 'u', '0', '0'] ++ Hex.ofByte (UInt8.ofNat c.toNat)
  else [c]

def quote (t : Text) : Text := '"' :: t.flatMap escapeChar ++ ['"']

end DeadDrop.Json
