import OpcodeLens.Json.Value

/-!
# Message envelopes

Editors and servers exchange JSON messages: calls, which have an identifier and are answered, notes,
which are not, and answers. On a stream each message follows a header that gives its length in
bytes.
-/

namespace OpcodeLens

/-- A message of the editor. -/
inductive Envelope where
  /-- Something to be answered. -/
  | call (id : Json) (method : Text) (params : Json)
  /-- Something that is not answered. -/
  | note (method : Text) (params : Json)
  /-- The answer to a call of the server: a value, or an error in words. -/
  | answer (id : Nat) (result : Except Text Json)

namespace Envelope

/-- Decodes a message. -/
def ofJson? (json : Json) : Option Envelope :=
  let params := (json.field? "params").getD .null
  match (json.field? "method").bind Json.asText?, json.field? "id" with
  | some method, some id => some (.call id method params)
  | some method, none => some (.note method params)
  | none, some id =>
    id.asNat?.map fun n =>
      match json.field? "error" with
      | some error => .answer n (.error (((error.field? "message").bind Json.asText?).getD []))
      | none => .answer n (.ok ((json.field? "result").getD .null))
  | none, none => none

/-- A message with the given parts. -/
def message (parts : List (String × Json)) : Json :=
  .object (("jsonrpc", .string "2.0") :: parts)

/-- The answer to a call. -/
def result (id value : Json) : Json := message [("id", id), ("result", value)]

/-- The answer to a call of a method that there is not. -/
def unknownMethod (id : Json) : Json :=
  let error := Json.object [("code", .int (-32601)), ("message", .string "Method not found")]
  message [("id", id), ("error", error)]

/-- A note of the server. -/
def noteOut (method : Text) (params : Json) : Json :=
  message [("method", .text method), ("params", params)]

/-- A call of the server. -/
def callOut (id : Nat) (method : Text) (params : Json) : Json :=
  message ([("id", .nat id), ("method", .text method)] ++
    if params.isNull then [] else [("params", params)])

/-- A message with its header, as it goes on a stream. -/
def framed (json : Json) : Text :=
  let body := json.write
  "Content-Length: ".toList ++ Text.ofNat body.byteLength ++ "\r\n\r\n".toList ++ body

/-- The length that a line of a header gives, if it is that line. -/
def lengthOfHeader? (line : Text) : Option Nat :=
  let head := "content-length:".toList
  if head.isPrefixOf (line.map Char.toLower) then
    let rest := (line.drop head.length).dropWhile (· = ' ')
    Json.digitsValue? (rest.takeWhile Char.isDigit)
  else none

end Envelope

end OpcodeLens
