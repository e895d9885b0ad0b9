import OpcodeLens.Command.Definition
import OpcodeLens.Enumeration.Source

/-!
# The catalogue

The catalogue is what the editor features look things up in: the commands, grouped by name and by
class, and the enumerations. Groups stand in the order in which their names first occur, and
commands within a group in the order of the definition document. Command names are compared in lower
case; classes, members and enumerations as they are written.
-/

namespace OpcodeLens

/-- Commands and enumerations to look things up in. -/
structure Catalogue where
  /-- The commands by their names. -/
  byName : OrderedMap (List Command) := {}
  /-- The commands that are class members, by their classes. -/
  byClass : OrderedMap (List Command) := {}
  /-- The enumerations by their names. -/
  enums : OrderedMap Enumeration := {}
  /-- The file the commands come from. -/
  source : Option Text := none
  deriving Repr

namespace Catalogue

/-! ### Building -/

/-- A command in its place in the list of all commands. The place tells it from another command that
has the same contents. -/
structure Listed where
  /-- The command. -/
  command : Command
  /-- How many commands stand before it. -/
  place : Nat
  deriving DecidableEq, Repr

/-- The commands of a list in their places. -/
def listed (commands : List Command) : List Listed := commands.zipIdx.map fun c => ⟨c.1, c.2⟩

/-- What a pass over the commands has put together. -/
structure Pass where
  /-- The commands by their names. -/
  byName : OrderedMap (List Listed) := {}
  /-- The commands that are class members, by their classes. -/
  byClass : OrderedMap (List Listed) := {}
  /-- The identifiers that have come up. -/
  seen : List Text := []
  /-- The commands to warn about: their identifiers had come up before. -/
  repeated : List Listed := []

/-- The pass over one more command. -/
def Pass.add (pass : Pass) (l : Listed) : Pass :=
  let taken := pass.seen.elem l.command.id
  { byName := pass.byName.push l.command.name l
    byClass := match l.command.classMember? with
      | some (owner, _) => pass.byClass.push owner l
      | none => pass.byClass
    seen := if taken then pass.seen else l.command.id :: pass.seen
    repeated := if taken then pass.repeated ++ [l] else pass.repeated }

/-- The pass over all commands of a list. -/
def Pass.run (commands : List Command) : Pass := (listed commands).foldl add {}

/-- The catalogue of a list of commands, which keeps no places. -/
def ofCommands (commands : List Command) : Catalogue :=
  let pass := Pass.run commands
  { byName := pass.byName.mapLists (·.command), byClass := pass.byClass.mapLists (·.command) }

/-- The commands of a document, in order. -/
def commandsOf (document : Definition.Document) : List Command :=
  document.entries.map Definition.Entry.command

/-- The catalogue of the sources that are there. -/
def build (document : Option Definition.Document) (enums : Option (OrderedMap Enumeration)) :
    Catalogue :=
  { ofCommands ((document.map commandsOf).getD []) with enums := enums.getD {} }

/-- The commands that a pass warns about if the identifiers in `seen` have come up before it. -/
def repeatedIds (seen : List Text) (commands : List Command) : List Command :=
  ((listed commands).foldl Pass.add { seen }).repeated.map (·.command)

theorem repeatedIds_nil (commands : List Command) :
    repeatedIds [] commands = (Pass.run commands).repeated.map (·.command) := rfl

/-! ### Looking up -/

/-- Is there neither a command nor an enumeration? -/
def isEmpty (cat : Catalogue) : Bool := cat.byName.isEmpty && cat.enums.isEmpty

/-- The number of commands. -/
def commandCount (cat : Catalogue) : Nat := cat.byName.values.flatten.length

/-- The first command with the given name, in any case. -/
def opcode? (cat : Catalogue) (name : Text) : Option Command :=
  (cat.byName.get? (Text.lower name)).bind List.head?

/-- The members of a class. -/
def classMembers? (cat : Catalogue) (owner : Text) : Option (List Command) := cat.byClass.get? owner

/-- The first command that is the given member of a class. -/
def classMember? (cat : Catalogue) (owner member : Text) : Option Command :=
  (cat.classMembers? owner).bind fun commands => commands.find? (·.memberName = some member)

/-- The enumeration with the given name. -/
def enum? (cat : Catalogue) (name : Text) : Option Enumeration := cat.enums.get? name

/-- The first member of an enumeration that has the given name. -/
def enumMember? (cat : Catalogue) (name member : Text) : Option Enumeration.Member :=
  (cat.enum? name).bind (·.member? member)

/-! ### Searching -/

/-- A command that a search has found. -/
structure Hit where
  /-- The name under which it was found. -/
  label : Text
  /-- The style to which that name belongs. -/
  style : Style
  /-- The command. -/
  command : Command
  deriving DecidableEq, Repr

/-- The commands found by name, given the query in lower case. -/
def nameHits (cat : Catalogue) (query : Text) : List Hit :=
  cat.byName.entries.flatMap fun (name, commands) =>
    if Text.contains query name then commands.map fun c => ⟨name, .opcode, c⟩ else []

/-- The name of a class member. -/
def memberLabel (owner : Text) (c : Command) : Text := owner ++ '.' :: c.memberName.getD []

/-- The commands found by class and member, given the query in lower case. -/
def memberHits (cat : Catalogue) (query : Text) : List Hit :=
  cat.byClass.entries.flatMap fun (owner, commands) =>
    (commands.filter fun c => Text.contains query (Text.lower (memberLabel owner c))).map
      fun c => ⟨memberLabel owner c, .classMember, c⟩

/-- The commands whose name, or whose `class.member`, contains the query in any case. -/
def search (cat : Catalogue) (query : Text) : List Hit :=
  cat.nameHits (Text.lower query) ++ cat.memberHits (Text.lower query)

end Catalogue

end OpcodeLens
