import OpcodeLens.Catalogue.Basic
import OpcodeLens.Command.Signature
import OpcodeLens.Workspace.FileUrl

/-!
# Workspace symbols

The commands of the catalogue as symbols of the workspace. They are placed at the start of the file
that the definitions come from; a catalogue without such a file has no symbols.
-/

namespace OpcodeLens

namespace Symbols

/-- A command as a symbol. -/
structure Symbol where
  /-- Its name and signature. -/
  name : Text
  /-- The style in which it was found. -/
  style : Style
  /-- The address of the file that defines it. -/
  address : Text
  /-- The class of a class member. -/
  container : Option Text
  deriving DecidableEq, Repr

/-- The symbol of a search hit. -/
def ofHit (address : Text) (hit : Catalogue.Hit) : Symbol where
  name := hit.label ++ ' ' :: Signature.plain hit.command hit.style
  style := hit.style
  address := address
  container := match hit.style with
    | .opcode => none
    | .classMember => hit.command.className

/-- The symbols that match a query. -/
def find (cat : Catalogue) (query : Text) : List Symbol :=
  match cat.source.bind FileUrl.ofPath? with
  | some address => (cat.search query).map (ofHit address)
  | none => []

end Symbols

end OpcodeLens
