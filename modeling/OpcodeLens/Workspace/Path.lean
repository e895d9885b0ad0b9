import OpcodeLens.Text.Basic

/-!
# Paths

Paths are texts with `/` between components. A path that starts with `/` is absolute.
-/

namespace OpcodeLens

namespace Path

/-- Is the path absolute? -/
def isAbsolute (path : Text) : Bool := path.head? = some '/'

/-- The path of `child` seen from `base`: an absolute child stands for itself, any other one is
appended after a slash, unless the base ends in one or is empty. -/
def join (base child : Text) : Text :=
  if isAbsolute child then child
  else if base.isEmpty || base.getLast? = some '/' then base ++ child
  else base ++ '/' :: child

/-- The pieces of a text between slashes. -/
def pieces : Text → List Text
  | [] => [[]]
  | c :: rest => if c = '/' then [] :: pieces rest else Text.consLine c (pieces rest)

/-- The components of a path: pieces that are empty or `.` do not count, except for a `.` that
starts a relative path. -/
def components (path : Text) : List Text :=
  match pieces path with
  | [] => []
  | first :: rest =>
    (if first = ['.'] then [first] else [first].filter (!·.isEmpty)) ++
      rest.filter fun piece => !piece.isEmpty && piece ≠ ['.']

/-- The folder of a path: the path without its last component. The root and the empty path have
none. -/
def parent? (path : Text) : Option Text :=
  match components path with
  | [] => none
  | parts =>
    let folder := Text.join ['/'] parts.dropLast
    some (if isAbsolute path then '/' :: folder else folder)

end Path

end OpcodeLens
