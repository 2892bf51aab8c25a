import DeadDrop.Json.Quoted

/-!
# Compact objects and arrays

Objects and arrays around values that are JSON texts already, without any blank.
-/

namespace DeadDrop.Json

/-- The object with the given members, in their order. -/
def object (members : List (Text × Text)) : Text :=
  '\x7b' :: Text.join [','] (members.map fun member => quote member.1 ++ ':' :: member.2) ++
    ['\x7d']

/-- The array with the given elements, in their order. -/
def array (elements : List Text) : Text := '[' :: Text.join [','] elements ++ [']']

end DeadDrop.Json
