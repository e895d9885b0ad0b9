import OpcodeLens.Server.Notice
import OpcodeLens.Server.Question

/-!
# What editors send

Notices and questions of the editor, decoded from a method and its parameters.
-/

namespace OpcodeLens

/-- What the editor sends. -/
inductive Incoming where
  /-- The session starts; the answer is what the server can do. -/
  | opening (settings : Option Json)
  /-- A notice. -/
  | notice (n : Notice)
  /-- A question. -/
  | question (q : Question)
  /-- The session ends. -/
  | shutdown

namespace Wire

/-- The value under a path of member names. -/
def valueAt? : List String → Json → Option Json
  | [], json => some json
  | name :: rest, json => (json.field? name).bind (valueAt? rest)

/-- A text in the parameters. -/
def textAt? (path : List String) (params : Json) : Option Text :=
  (valueAt? path params).bind Json.asText?

/-- A natural number in the parameters. -/
def natAt? (path : List String) (params : Json) : Option Nat :=
  (valueAt? path params).bind Json.asNat?

/-- The address of the document that the parameters are about. -/
def address? (params : Json) : Option Text := textAt? ["textDocument", "uri"] params

/-- The position that the parameters are about. -/
def position? (params : Json) : Option Position := do
  some ⟨← natAt? ["position", "line"] params, ← natAt? ["position", "character"] params⟩

/-- The new texts of a changed document. -/
def newTexts? (params : Json) : Option (List Text) := do
  let changes ← valueAt? ["contentChanges"] params
  (← changes.asArray?).mapM (textAt? ["text"])

/-- Does the editor want definitions among the references? -/
def withDefinitions? (params : Json) : Option Bool :=
  (valueAt? ["context", "includeDeclaration"] params).bind Json.asBool?

/-- Decodes what the editor sends. -/
def incoming? (method : String) (params : Json) : Option Incoming :=
  match method with
  | "initialize" => some (.opening (params.field? "initializationOptions"))
  | "initialized" => some (.notice .opened)
  | "shutdown" => some .shutdown
  | "workspace/didChangeConfiguration" =>
    (params.field? "settings").map fun settings => .notice (.settingsChanged settings)
  | "textDocument/didOpen" => do
    some (.notice (.documentOpened (← address? params) (← textAt? ["textDocument", "text"] params)))
  | "textDocument/didChange" => do
    some (.notice (.documentChanged (← address? params) (← newTexts? params)))
  | "textDocument/didClose" => do some (.notice (.documentClosed (← address? params)))
  | "textDocument/hover" => do some (.question (.hover (← address? params) (← position? params)))
  | "textDocument/completion" => do
    some (.question (.completion (← address? params) (← position? params)))
  | "textDocument/definition" => do
    some (.question (.definition (← address? params) (← position? params)))
  | "textDocument/references" => do
    let withDefinitions ← withDefinitions? params
    some (.question (.references (← address? params) (← position? params) withDefinitions))
  | "textDocument/documentLink" => do some (.question (.links (← address? params)))
  | "textDocument/documentSymbol" => do some (.question (.outline (← address? params)))
  | "textDocument/semanticTokens/full" => do some (.question (.highlight (← address? params)))
  | "workspace/symbol" => (textAt? ["query"] params).map fun query => .question (.symbols query)
  | "sb4/command/get-opcodes" => some (.question .commandsByName)
  | "sb4/command/get-classes-members" => some (.question .commandsByClass)
  | _ => none

end Wire

end OpcodeLens
