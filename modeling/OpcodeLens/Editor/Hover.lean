import OpcodeLens.Catalogue.Basic
import OpcodeLens.Command.Signature
import OpcodeLens.Text.WordSpan

/-!
# Hovering

What is shown for the word under the cursor. `owner.member` is looked up as a class member, then as
a member of an enumeration; anything else, and an `owner.member` that is neither, is looked up as a
command name. A word that is tagged as a label jump is never a command.
-/

namespace OpcodeLens

/-- A description of a part of a document. -/
structure Hover where
  /-- The description. -/
  body : Text
  /-- The part it describes. -/
  bytes : ByteRange
  deriving DecidableEq, Repr

namespace Hover

/-- The signature of a command and, after an empty line, what it does. -/
def describe (c : Command) (style : Style) : Text :=
  Signature.plain c style ++ '\n' :: '\n' :: c.shortDesc

/-- The description of a member of an enumeration. -/
def describeMember (owner member : Text) (value : Enumeration.Value) : Text :=
  owner ++ '.' :: member ++ "\nValue: ".toList ++ value.display

/-- The description of `owner.member`. -/
def ofDotted? (cat : Catalogue) (word : WordSpan) : Option Hover :=
  match word.text.splitFirst? '.' with
  | none => none
  | some (owner, member) =>
    match cat.classMember? owner member with
    | some c => some ⟨describe c .classMember, word.bytes⟩
    | none =>
      (cat.enumMember? owner member).map fun element =>
        ⟨describeMember owner member element.value, word.bytes⟩

/-- Does an `@` stand right before the byte offset? -/
def followsAt (text : Text) (offset : Nat) : Bool :=
  match text.splitAtByte offset with
  | some (before, _) => before.getLast? = some '@'
  | none => false

/-- The description of a command by its name. -/
def ofSimple? (cat : Catalogue) (text : Text) (word : WordSpan) : Option Hover :=
  if followsAt text word.start then none
  else (cat.opcode? word.text).map fun c => ⟨describe c .opcode, word.bytes⟩

/-- The description for the cursor at a byte offset. -/
def atOffset? (cat : Catalogue) (text : Text) (offset : Nat) : Option Hover :=
  match (text.dottedWord? offset).bind (ofDotted? cat) with
  | some hover => some hover
  | none => (text.simpleWord? offset).bind (ofSimple? cat text)

/-- The description for the cursor at a position. -/
def at? (cat : Catalogue) (text : Text) (p : Position) : Option Hover :=
  (text.offsetAt? p).bind (atOffset? cat text)

end Hover

end OpcodeLens
