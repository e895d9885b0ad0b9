import OpcodeLens.Workspace.Path

/-!
# Files

A file tree is what the library sees of a disk: folders and files under absolute paths.
`FileTree.read` resolves a path component by component, as file systems do: `..` leads back to the
folder above, a component after a file is an error, and a component that does not exist ends the
walk. Whatever can be read, a `Reader` reads it; the rest of the library asks for no more than that.
-/

namespace OpcodeLens

/-- Why a file cannot be read. -/
inductive ReadError where
  /-- The path leads to a folder. -/
  | isDirectory
  /-- The path leads through a file. -/
  | notDirectory
  /-- A component of the path is too long. -/
  | nameTooLong
  /-- The file is not text. -/
  | invalidUtf8
  /-- There is a NUL in the path. -/
  | nulInPath
  /-- Anything else, in words. -/
  | other (reason : Text)
  deriving DecidableEq, Repr

/-- The reason in words. -/
def ReadError.message : ReadError → Text
  | .isDirectory => "Is a directory (os error 21)".toList
  | .notDirectory => "Not a directory (os error 20)".toList
  | .nameTooLong => "File name too long (os error 36)".toList
  | .invalidUtf8 => "stream did not contain valid UTF-8".toList
  | .nulInPath => "file name contained an unexpected NUL byte".toList
  | .other reason => reason

/-- The outcome of reading a file: its text, `none` if there is no such file, or an error. -/
abbrev ReadResult := Except ReadError (Option Text)

/-- Reads the file at a path. -/
abbrev Reader := Text → ReadResult

/-- Something in a file tree. -/
inductive Node where
  /-- A folder. -/
  | folder
  /-- A file with its bytes. -/
  | file (bytes : ByteArray)

/-- Folders and files; each is listed with the components of its path. -/
structure FileTree where
  /-- The folders and files. -/
  nodes : List (List Text × Node) := []

namespace FileTree

/-- What is at the given place; the root is always a folder. -/
def find? (tree : FileTree) (place : List Text) : Option Node :=
  if place.isEmpty then some .folder
  else (tree.nodes.find? fun (key, _) => key = place).map (·.2)

/-- Puts something at a place, instead of what is there. -/
def set (tree : FileTree) (place : List Text) (node : Node) : FileTree :=
  ⟨(place, node) :: tree.nodes.filter fun (key, _) => key ≠ place⟩

/-- The places above a place, from the top. -/
def above (place : List Text) : List (List Text) :=
  (List.range place.length).map fun n => place.take n

/-- Makes the folders above a place where there are none. -/
def makeFolders (tree : FileTree) (places : List (List Text)) : FileTree :=
  places.foldl
    (fun tree place => if (tree.find? place).isSome then tree else tree.set place .folder) tree

/-- The place of an absolute path. -/
def placeOf (path : Text) : List Text := Path.components path

/-- The tree with a file. -/
def writeFile (tree : FileTree) (path : Text) (bytes : ByteArray) : FileTree :=
  (tree.makeFolders (above (placeOf path))).set (placeOf path) (.file bytes)

/-- The tree with a folder. -/
def makeFolder (tree : FileTree) (path : Text) : FileTree :=
  tree.makeFolders (above (placeOf path) ++ [placeOf path])

/-- The tree without a file or folder and what is in it. -/
def remove (tree : FileTree) (path : Text) : FileTree :=
  ⟨tree.nodes.filter fun (key, _) => !(placeOf path).isPrefixOf key⟩

/-! ### Reading -/

/-- Walks along components from a place. -/
def walk (tree : FileTree) (place : List Text) : List Text → Except ReadError (Option (List Text))
  | [] => .ok (some place)
  | part :: rest =>
    match tree.find? place with
    | none => .ok none
    | some (.file _) => .error .notDirectory
    | some .folder =>
      if part.isEmpty || part = ['.'] then tree.walk place rest
      else if part = ['.', '.'] then tree.walk place.dropLast rest
      else if 255 < part.byteLength then .error .nameTooLong
      else if (tree.find? (place ++ [part])).isSome then tree.walk (place ++ [part]) rest
      else .ok none

/-- The text of a file. -/
def textOf (bytes : ByteArray) : ReadResult :=
  match String.fromUTF8? bytes with
  | some s => .ok (some s.toList)
  | none => .error .invalidUtf8

/-- Reads what is at the end of a walk along a path from the root. -/
def readFrom (tree : FileTree) (path : Text) : ReadResult :=
  match tree.walk [] (Path.pieces path) with
  | .error e => .error e
  | .ok none => .ok none
  | .ok (some place) =>
    match tree.find? place with
    | none => .ok none
    | some .folder => .error .isDirectory
    | some (.file bytes) => textOf bytes

/-- Reads the file at a path. The empty path leads nowhere, and a relative one starts in a folder
that has nothing in it. -/
def read (tree : FileTree) : Reader := fun path =>
  if path.elem (Char.ofNat 0) then .error .nulInPath
  else if path.isEmpty then .ok none
  else if 4096 ≤ path.byteLength then .error .nameTooLong
  else if Path.isAbsolute path then tree.readFrom path
  else readFrom {} path

end FileTree

end OpcodeLens
