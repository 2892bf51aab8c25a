import DeadDrop.Text

/-!
# HTML escapes

Text that is inert inside of HTML: the five characters with a meaning there are written as character
references.
-/

namespace DeadDrop.Html

def escapeChar (c : Char) : Text :=
  if c = '&' then "&amp;".toList
  else if c = '<' then "&lt;".toList
  else if c = '>' then "&gt;".toList
  else if c = '"' then "&#34;".toList
  else if c = '\'' then "&#39;".toList
  else [c]

/-- Writes the five characters with a meaning in HTML as character references. -/
def escape (t : Text) : Text := t.flatMap escapeChar

end DeadDrop.Html
