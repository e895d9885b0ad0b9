import OpcodeLens.Text.Blank
import OpcodeLens.Text.Position
import OpcodeLens.Workspace.FileUrl

/-!
# Include links

`{$INCLUDE path}` names another script. Blanks must follow the keyword, the path runs to the first
closing brace, and blanks around it do not belong to it; a directive with nothing but blanks names
nothing. The path is taken relative to the folder of the document.
-/

namespace OpcodeLens

namespace Includes

/-- A directive that names a path. -/
structure Directive where
  /-- The part of the document that holds the path. -/
  bytes : ByteRange
  /-- The path. -/
  path : Text
  deriving DecidableEq, Repr

/-- The words that open a directive. -/
def opening : Text := "\x7b$INCLUDE".toList

/-- The text between the opening of a directive and its closing brace, if the text starts with a
directive that names a path. -/
def inner? (text : Text) : Option Text :=
  match Text.dropHead? opening text with
  | none => none
  | some rest =>
    let inner := rest.takeWhile (· ≠ '\x7d')
    if inner.length < rest.length && inner.head?.any Text.isBlank && !Text.isAllBlank inner then
      some inner
    else none

/-- The directives of a text that starts at a byte offset, of which the first `skip` characters
belong to a directive that is already listed. -/
def directivesFrom (offset : Nat) (skip : Nat) : Text → List Directive
  | [] => []
  | c :: rest =>
    match skip with
    | skip + 1 => directivesFrom (offset + c.utf8Size) skip rest
    | 0 =>
      match inner? (c :: rest) with
      | none => directivesFrom (offset + c.utf8Size) 0 rest
      | some inner =>
        let start := offset + opening.byteLength + Text.byteLength (inner.takeWhile Text.isBlank)
        let path := Text.trim inner
        ⟨⟨start, start + path.byteLength⟩, path⟩ ::
          directivesFrom (offset + c.utf8Size) (opening.length + inner.length) rest

/-- The directives of a document. -/
def directives (text : Text) : List Directive := directivesFrom 0 0 text

/-- A link from a document to another file. -/
structure Link where
  /-- The part of the document that is the link. -/
  range : Range
  /-- The address of the file, if there is one. -/
  target : Option Text
  deriving DecidableEq, Repr

/-- The links of a document at the given path. -/
def links (text : Text) (document : Text) : List Link :=
  let folder := (Path.parent? document).getD document
  (directives text).map fun d =>
    ⟨text.rangeOf d.bytes, FileUrl.ofPath? (Path.join folder d.path)⟩

end Includes

end OpcodeLens
