import OpcodeLens.Text.Lowercase
import OpcodeLens.Text.WordSpan
import OpcodeLens.Token.Scanner

/-!
# Labels

`:name` defines a label and `@name` jumps to it; the case of ASCII letters does not matter. From the
word under the cursor, whether or not it stands in a label itself, `Labels.definitions` and
`Labels.references` list the labels of that name in the order of the document.
-/

namespace OpcodeLens

namespace Labels

/-- The word under the cursor. -/
def nameAt? (text : Text) (p : Position) : Option Text :=
  ((text.offsetAt? p).bind text.simpleWord?).map (·.text)

/-- Is the token a label with the given name? -/
def isNamed (name : Text) (t : Token) : Bool :=
  t.isLabel && Text.sameIgnoringAsciiCase t.bareName name

/-- The ranges of the labels with the given name that satisfy `admits`. -/
def rangesOf (text : Text) (name : Text) (admits : Token → Bool) : List Range :=
  ((Token.scan text).filter fun t => isNamed name t && admits t).map (Token.range text.lines)

/-- Where the label under the cursor is defined. -/
def definitions (text : Text) (p : Position) : List Range :=
  match nameAt? text p with
  | some name => rangesOf text name (·.kind = .labelDefine)
  | none => []

/-- Where the label under the cursor is jumped to, and, if asked for, where it is defined. -/
def references (text : Text) (p : Position) (withDefinitions : Bool) : List Range :=
  match nameAt? text p with
  | some name => rangesOf text name fun t => withDefinitions || t.kind = .labelJump
  | none => []

/-- A label of the document's outline. -/
structure Symbol where
  /-- Its name. -/
  name : Text
  /-- Where it is defined. -/
  range : Range
  deriving DecidableEq, Repr

/-- The labels that the document defines, without those that have no name. -/
def symbols (text : Text) : List Symbol :=
  ((Token.scan text).filter fun t => t.kind = .labelDefine && !t.bareName.isEmpty).map fun t =>
    ⟨t.bareName, t.range text.lines⟩

end Labels

end OpcodeLens
