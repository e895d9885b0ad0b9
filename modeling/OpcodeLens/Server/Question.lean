import OpcodeLens.Editor.Completion
import OpcodeLens.Editor.Highlight
import OpcodeLens.Editor.Includes
import OpcodeLens.Editor.Labels
import OpcodeLens.Editor.Symbols
import OpcodeLens.Server.Basic

/-!
# Questions of the editor

What the server answers from its open documents and the published catalogue. A document that is not
open has no answers, and for most questions an empty list counts as no answer.
-/

namespace OpcodeLens

/-- What the editor asks of the server. -/
inductive Question where
  /-- The description at a position. -/
  | hover (address : Text) (p : Position)
  /-- What can be inserted at a position. -/
  | completion (address : Text) (p : Position)
  /-- Where the label at a position is defined. -/
  | definition (address : Text) (p : Position)
  /-- Where the label at a position is used, and perhaps defined. -/
  | references (address : Text) (p : Position) (withDefinitions : Bool)
  /-- The links of a document. -/
  | links (address : Text)
  /-- The labels of a document. -/
  | outline (address : Text)
  /-- The highlighting of a document. -/
  | highlight (address : Text)
  /-- The commands that match a query. -/
  | symbols (query : Text)
  /-- All commands by name. -/
  | commandsByName
  /-- All class members by class. -/
  | commandsByClass

namespace Server

variable (s : Server)

/-- A list, unless it is empty. -/
def nonEmpty? (list : List α) : Option (List α) := if list.isEmpty then none else some list

/-- The text of an open document. -/
def document? (address : Text) : Option Text := s.documents.get? address

/-- The description at a position, and the part of the document that it describes. -/
def hover? (address : Text) (p : Position) : Option (Text × Range) :=
  (s.document? address).bind fun text =>
    (Hover.at? s.catalogue text p).map fun h => (h.body, text.rangeOf h.bytes)

/-- What can be inserted at a position. -/
def completion? (address : Text) (p : Position) : Option (List Completion.Item) :=
  (s.document? address).bind fun text => nonEmpty? (Completion.atPosition s.catalogue text p)

/-- Where the label at a position is defined. -/
def definition? (address : Text) (p : Position) : Option (List Range) :=
  (s.document? address).bind fun text => nonEmpty? (Labels.definitions text p)

/-- Where the label at a position is used, and perhaps defined. -/
def references? (address : Text) (p : Position) (withDefinitions : Bool) : Option (List Range) :=
  (s.document? address).bind fun text => nonEmpty? (Labels.references text p withDefinitions)

/-- The links of a document, if its address is that of a file. -/
def links? (address : Text) : Option (List Includes.Link) :=
  (s.document? address).bind fun text => (FileUrl.toPath? address).map (Includes.links text)

/-- The labels of a document. -/
def outline? (address : Text) : Option (List Labels.Symbol) :=
  (s.document? address).bind fun text => nonEmpty? (Labels.symbols text)

/-- The highlighting of a document. -/
def highlight? (address : Text) : Option (List Highlight.Delta) :=
  (s.document? address).map (Highlight.deltas s.catalogue)

/-- The commands that match a query. -/
def symbols? (query : Text) : Option (List Symbols.Symbol) :=
  nonEmpty? (Symbols.find s.catalogue query)

end Server

end OpcodeLens
