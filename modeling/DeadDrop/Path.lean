import DeadDrop.Text.Utf8

/-!
# Paths

Paths of files as text, with slashes between their pieces. A path is kept as it was given and shown
that way; empty pieces and single points in it mean nothing, except for a point in front, which is
kept apart when paths are compared.
-/

namespace DeadDrop.Path

def pieces (path : Text) : List Text := Text.splitOn '/' path

def isAbsolute (path : Text) : Bool := path.head? = some '/'

def isVoid (piece : Text) : Bool := piece.isEmpty || piece = ['.']

def join (directory name : Text) : Text :=
  if directory.isEmpty || directory.getLast? = some '/' then directory ++ name
  else directory ++ '/' :: name

def trimEnd (path : Text) : Text :=
  match pieces path with
  | [] => []
  | first :: rest =>
    let kept := first :: (rest.reverse.dropWhile isVoid).reverse
    if isAbsolute path && kept.length = 1 then ['/'] else Text.join ['/'] kept

/-- What tells paths apart: whether they begin at the root, whether they begin with a point, and the
pieces that name something. -/
def shape (path : Text) : Bool × Bool × List Text :=
  (isAbsolute path, (pieces path).head? = some ['.'], (pieces path).filter fun p => !isVoid p)

/-- The greatest number of bytes in a path and in a piece of it. -/
def maxBytes : Nat × Nat := (4095, 255)

/-- Whether a path can be looked up at all: it is not empty, not too long, and free of zeros. -/
def isUsable (path : Text) : Bool :=
  !path.isEmpty && !path.contains '\x00' && (Text.toUtf8 path).length ≤ maxBytes.1 &&
    (pieces path).all fun piece => (Text.toUtf8 piece).length ≤ maxBytes.2

end DeadDrop.Path
