import OpcodeLens.Catalogue.Basic
import OpcodeLens.Workspace.Edition
import OpcodeLens.Workspace.FileTree

/-!
# Loading a catalogue

The catalogue of a selection is built from two files, the command definitions and the enumerations.
A file that does not exist counts as empty; one that cannot be read or parsed is an error. If both
files are at fault, the definitions are reported.
-/

namespace OpcodeLens

/-- Why the sources of a selection cannot be loaded. -/
inductive LoadError where
  /-- A file cannot be read. -/
  | unreadable (path : Text) (reason : ReadError)
  /-- The command definitions do not follow their schema. -/
  | malformedDefinitions
  /-- An enumeration has no end. -/
  | unterminated (header : Enumeration.Unterminated)
  deriving DecidableEq, Repr

/-- The error in words. What is wrong with malformed definitions is not told in detail. -/
def LoadError.message : LoadError → Text
  | .unreadable path reason => "failed to read ".toList ++ path ++ ": ".toList ++ reason.message
  | .malformedDefinitions => "malformed command definitions: ".toList
  | .unterminated header =>
    "malformed enum source: block `".toList ++ header.name ++ "` on line ".toList ++
      Text.ofNat header.line ++ " has no closing `end`".toList

namespace Catalogue

/-- Reads a source file. -/
def readSource (read : Reader) (path : Text) : Except LoadError (Option Text) :=
  (read path).mapError (.unreadable path)

/-- The definitions in a source, if there is one. -/
def parseDefinitions : Option Text → Except LoadError (Option Definition.Document)
  | none => .ok none
  | some text =>
    match Definition.parse? text with
    | some document => .ok (some document)
    | none => .error .malformedDefinitions

/-- The enumerations in a source, if there is one. -/
def parseEnums : Option Text → Except LoadError (Option (OrderedMap Enumeration))
  | none => .ok none
  | some text => ((Enumeration.parse text).mapError .unterminated).map some

/-- The catalogue of a selection. The two files may be read at different times, the definitions by
`readDefinitions` and the enumerations by `readEnums`. -/
def loadWith (readDefinitions readEnums : Reader) (selection : Selection) :
    Except LoadError Catalogue := do
  let text ← readSource readDefinitions selection.definitionsPath
  let document ← parseDefinitions text
  let enumsText ← readSource readEnums selection.enumsPath
  let enums ← parseEnums enumsText
  let cat := build document enums
  return if document.isSome then { cat with source := some selection.definitionsPath } else cat

/-- The catalogue of a selection. -/
def load (read : Reader) (selection : Selection) : Except LoadError Catalogue :=
  loadWith read read selection

end Catalogue

end OpcodeLens
