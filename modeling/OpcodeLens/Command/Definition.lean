import OpcodeLens.Command.Basic
import OpcodeLens.Json.Reader

/-!
# Command definitions

Commands are defined in a JSON document: a list of extensions, each with a list of entries.
`Definition.parse?` reads one. The schema is fixed: a known member must have its type and stand
once, other members are passed over, and each record may also be written as the array of its members
in order, from which trailing optional ones may be left out.
-/

namespace OpcodeLens

namespace Definition

/-- The definition of a command, as it is written. -/
structure Entry where
  /-- The identifier. -/
  id : Text
  /-- The name, in any case. -/
  name : Text
  /-- The class; an empty one counts as none. -/
  className : Option Text := none
  /-- The name in the class; an empty one counts as none. -/
  memberName : Option Text := none
  /-- The inputs. -/
  inputs : Option (List Param) := none
  /-- The outputs. -/
  outputs : Option (List Param) := none
  /-- What the command does. -/
  shortDesc : Text := []
  /-- Is the command marked as unsupported, or as supported? -/
  unsupported : Option Bool := none
  deriving DecidableEq, Repr

/-- A group of entries. -/
structure Extension where
  /-- Its entries. -/
  entries : List Entry := []
  deriving DecidableEq, Repr

/-- A definition document. -/
structure Document where
  /-- Its extensions. -/
  extensions : List Extension := []
  deriving DecidableEq, Repr

/-- All entries of a document, in order. -/
def Document.entries (d : Document) : List Entry := d.extensions.flatMap (·.entries)

/-- The command that an entry defines. -/
def Entry.command (e : Entry) : Command where
  id := e.id
  name := Text.lower e.name
  className := e.className.filter (!·.isEmpty)
  memberName := e.memberName.filter (!·.isEmpty)
  inputs := e.inputs
  outputs := e.outputs
  shortDesc := e.shortDesc
  isUnsupported := e.unsupported = some true

/-! ### Decoding -/

/-- The value of a member that may stand at most once. -/
def once? (name : Text) (members : List (Option Text × Json)) : Option (Option Json) :=
  match members.filter fun (key, _) => key = some name with
  | [] => some none
  | [(_, value)] => some (some value)
  | _ => none

/-- The values of the named members of a record, in the order of the names. -/
def record? (names : List String) : Json → Option (List (Option Json))
  | .obj members =>
    if members.all fun (key, _) => key.isSome then names.mapM fun name => once? name.toList members
    else none
  | .arr items =>
    if items.length ≤ names.length then
      some (items.map some ++ List.replicate (names.length - items.length) none)
    else none
  | _ => none

/-- A text that must be there. -/
def required? (value : Option Json) : Option Text := value.bind (·.asText?)

/-- A text that may be missing, which means the empty one. -/
def defaulted? : Option Json → Option Text
  | none => some []
  | some value => value.asText?

/-- A value that may be missing or `null`. -/
def optional? (decode : Json → Option α) : Option Json → Option (Option α)
  | none => some none
  | some .null => some none
  | some value => (decode value).map some

/-- An array of values. -/
def list? (decode : Json → Option α) : Json → Option (List α)
  | .arr items => items.mapM decode
  | _ => none

/-- An input or output. -/
def param? (json : Json) : Option Param := do
  match ← record? ["name", "type", "source"] json with
  | [name, type, source] =>
    some ⟨← optional? Json.asText? name, ← optional? Json.asText? type,
      ← optional? Json.asText? source⟩
  | _ => none

/-- The mark for unsupported commands. -/
def unsupported? (json : Json) : Option (Option Bool) := do
  match ← record? ["is_unsupported"] json with
  | [mark] => optional? Json.asBool? mark
  | _ => none

/-- The members of an entry, in order. -/
def entryNames : List String :=
  ["id", "name", "class", "member", "input", "output", "short_desc", "attrs"]

/-- An entry. -/
def entry? (json : Json) : Option Entry := do
  match ← record? entryNames json with
  | [id, name, className, memberName, inputs, outputs, shortDesc, marks] =>
    some {
      id := ← required? id
      name := ← required? name
      className := ← optional? Json.asText? className
      memberName := ← optional? Json.asText? memberName
      inputs := ← optional? (list? param?) inputs
      outputs := ← optional? (list? param?) outputs
      shortDesc := ← defaulted? shortDesc
      unsupported := (← optional? unsupported? marks).join }
  | _ => none

/-- An extension. -/
def extension? (json : Json) : Option Extension := do
  match ← record? ["commands"] json with
  | [none] => some {}
  | [some entries] => some ⟨← list? entry? entries⟩
  | _ => none

/-- A document, from its tree. -/
def document? (json : Json) : Option Document := do
  match ← record? ["extensions"] json with
  | [some extensions] => some ⟨← list? extension? extensions⟩
  | _ => none

/-- Reads a definition document. -/
def parse? (text : Text) : Option Document := (Json.read? text).bind document?

end Definition

end OpcodeLens
