import OpcodeLens.Command.Markup
import OpcodeLens.Json.Basic

/-!
# Command cards

A card is a command together with the signatures that have been asked of it. A signature is written
when it is first asked for and kept from then on, even if the command is changed later.
`Card.serialize` is the record of a command that is sent to editors.
-/

namespace OpcodeLens

/-- A command and the signatures that it has been asked for. -/
structure Card where
  /-- The command. -/
  command : Command
  /-- Its signature by name, once it has been asked for. -/
  opcode : Option Text := none
  /-- Its signature by class, once it has been asked for. -/
  classMember : Option Text := none
  deriving DecidableEq, Repr

namespace Card

/-- A card of which nothing has been asked. -/
def ofCommand (c : Command) : Card := { command := c }

/-- The signature that is kept for a style. -/
def kept (card : Card) : Style → Option Text
  | .opcode => card.opcode
  | .classMember => card.classMember

/-- Keeps a signature for a style. -/
def keep (card : Card) (style : Style) (signature : Text) : Card :=
  match style with
  | .opcode => { card with opcode := some signature }
  | .classMember => { card with classMember := some signature }

/-- The signature for a style: the one that is kept, or the command's, which is kept from now on. -/
def signature (card : Card) (style : Style) : Text × Card :=
  match card.kept style with
  | some text => (text, card)
  | none =>
    let text := Signature.plain card.command style
    (text, card.keep style text)

/-- The signature for a style with its marks. -/
def highlighted (card : Card) (style : Style) : Text × Card :=
  let (text, card) := card.signature style
  (Markup.highlight text card.command style, card)

/-- The highlighted signatures for a list of styles. -/
def highlightedAll (card : Card) : List Style → List (Style × Text) × Card
  | [] => ([], card)
  | style :: rest =>
    let (text, card) := card.highlighted style
    let (texts, card) := highlightedAll card rest
    ((style, text) :: texts, card)

end Card

/-- The name of a style in records. -/
def Style.key : Style → String
  | .opcode => "OPCODE"
  | .classMember => "CLASS_MEMBER"

/-- An input or output as a record; missing parts are left out. -/
def Param.toJson (p : Param) : Json :=
  .object ([("name", p.name), ("type", p.type), ("source", p.source)].filterMap
    fun (key, text) => text.map fun t => (key, Json.text t))

/-- The record of a command, with its highlighted signature for each of its styles. -/
def Card.serialize (card : Card) : Json × Card :=
  let c := card.command
  let (texts, kept) := card.highlightedAll c.styles
  (.object [
    ("id", .text c.id),
    ("name", .text c.name),
    ("class", .ofOption .text c.className),
    ("member", .ofOption .text c.memberName),
    ("input", .ofOption (fun ps => .arr (ps.map Param.toJson)) c.inputs),
    ("output", .ofOption (fun ps => .arr (ps.map Param.toJson)) c.outputs),
    ("shortDesc", .text c.shortDesc),
    ("isUnsupported", .bool c.isUnsupported),
    ("format", .object (texts.map fun (style, text) => (style.key, .text text)))], kept)

/-- The record of a command of which nothing has been asked. -/
def Command.toJson (c : Command) : Json := (Card.ofCommand c).serialize.1

end OpcodeLens
