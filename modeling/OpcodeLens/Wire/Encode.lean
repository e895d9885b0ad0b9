import OpcodeLens.Command.Card
import OpcodeLens.Server.Notice
import OpcodeLens.Server.Question

/-!
# What editors receive

The JSON forms of answers and messages. Optional parts that are missing are left out.
-/

namespace OpcodeLens

/-- A position. -/
def Position.toJson (p : Position) : Json :=
  .object [("line", .nat p.line), ("character", .nat p.character)]

/-- A range. -/
def Range.toJson (r : Range) : Json :=
  .object [("start", r.start.toJson), ("end", r.stop.toJson)]

namespace Wire

/-! ### Answers -/

/-- A part that is left out if it is missing. -/
def optionalPart (name : String) : Option Json → List (String × Json)
  | some value => [(name, value)]
  | none => []

/-- A text in the editor's markup language. -/
def markdown (text : Text) : Json :=
  .object [("kind", .string "markdown"), ("value", .text text)]

/-- A place in a document. -/
def location (address : Text) (r : Range) : Json :=
  .object [("uri", .text address), ("range", r.toJson)]

/-- A description. -/
def hover (body : Text) (r : Range) : Json :=
  .object [("contents", markdown body), ("range", r.toJson)]

/-- The number of a kind of completion item. -/
def completionKind : Completion.Kind → Nat
  | .method => 2
  | .function => 3
  | .classKind => 7
  | .enumKind => 13
  | .enumMember => 20

/-- A completion item. -/
def completionItem (i : Completion.Item) : Json :=
  .object ([("label", .text i.label), ("kind", .nat (completionKind i.kind)),
      ("detail", .text i.detail)] ++
    optionalPart "documentation" (i.documentation.map markdown) ++
    optionalPart "sortText" (i.sortText.map Json.text))

/-- A link. -/
def link (l : Includes.Link) : Json :=
  .object (("range", l.range.toJson) :: optionalPart "target" (l.target.map Json.text))

/-- A label of an outline. -/
def outlineSymbol (s : Labels.Symbol) : Json :=
  .object [("name", .text s.name), ("kind", .nat 20), ("range", s.range.toJson),
    ("selectionRange", s.range.toJson)]

/-- The number of the kind of symbol that a command is. -/
def symbolKind : Style → Nat
  | .opcode => 12
  | .classMember => 6

/-- A command as a symbol. -/
def workspaceSymbol (s : Symbols.Symbol) : Json :=
  .object ([("name", .text s.name), ("kind", .nat (symbolKind s.style)),
    ("location", location s.address ⟨.zero, .zero⟩)] ++
    optionalPart "containerName" (s.container.map Json.text))

/-- Highlighting, as one list of numbers. -/
def highlight (deltas : List Highlight.Delta) : Json :=
  .object [("data", .arr ((deltas.flatMap (·.numbers)).map Json.nat))]

/-- The names behind the numbers of highlighting. -/
def legend : Json :=
  .object [("tokenTypes", .arr (Highlight.kindNames.map Json.string)),
    ("tokenModifiers", .arr (Highlight.modifierNames.map Json.string))]

/-- Groups of commands. -/
def commandGroups (groups : OrderedMap (List Command)) : Json :=
  .obj (groups.entries.map fun (name, commands) => (some name, .arr (commands.map Command.toJson)))

/-- What the server can do. -/
def capabilities : Json :=
  .object [
    ("capabilities", .object [
      ("textDocumentSync", .object [("openClose", .bool true), ("change", .nat 1)]),
      ("hoverProvider", .bool true),
      ("completionProvider", .object [
        ("triggerCharacters", .arr (Completion.triggers.map Json.text))]),
      ("semanticTokensProvider", .object [
        ("legend", legend), ("range", .bool false), ("full", .bool true)]),
      ("definitionProvider", .bool true),
      ("referencesProvider", .bool true),
      ("documentLinkProvider", .object [("resolveProvider", .bool false)]),
      ("documentSymbolProvider", .bool true),
      ("workspaceSymbolProvider", .bool true)]),
    ("serverInfo", .object [("name", .string "sanny-lsp"), ("version", .string "0.1.0")])]

/-- A list of places; a single one stands for itself. -/
def definition (address : Text) : List Range → Json
  | [r] => location address r
  | ranges => .arr (ranges.map (location address))

/-- The answer to a question. -/
def answer (s : Server) : Question → Json
  | .hover address p => .ofOption (fun (body, r) => hover body r) (s.hover? address p)
  | .completion address p =>
    .ofOption (fun items => .arr (items.map completionItem)) (s.completion? address p)
  | .definition address p => .ofOption (definition address) (s.definition? address p)
  | .references address p withDefinitions =>
    .ofOption (fun ranges => .arr (ranges.map (location address)))
      (s.references? address p withDefinitions)
  | .links address => .ofOption (fun links => .arr (links.map link)) (s.links? address)
  | .outline address =>
    .ofOption (fun symbols => .arr (symbols.map outlineSymbol)) (s.outline? address)
  | .highlight address => .ofOption highlight (s.highlight? address)
  | .symbols query =>
    .ofOption (fun symbols => .arr (symbols.map workspaceSymbol)) (s.symbols? query)
  | .commandsByName => commandGroups s.catalogue.byName
  | .commandsByClass => commandGroups s.catalogue.byClass

/-! ### Messages -/

/-- The number of a level. -/
def levelCode : Level → Nat
  | .error => 1
  | .warning => 2
  | .info => 3

/-- The parameters of a message to the user. -/
def messageParams (level : Level) (text : Text) : Json :=
  .object [("type", .nat (levelCode level)), ("message", .text text)]

/-- The method and the parameters of what the server sends. -/
def outgoing : Outgoing → Text × Json
  | .log level text => ("window/logMessage".toList, messageParams level text)
  | .alert level text => ("window/showMessage".toList, messageParams level text)
  | .request _ r => (r.method, r.params)

end Wire

end OpcodeLens
