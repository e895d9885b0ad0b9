import OpcodeLens.Command.Basic
import OpcodeLens.Text.Blank

/-!
# Signatures

A signature shows how a command is written. It is a list of spans, pieces of text of a certain kind,
so that the same list gives the plain signature (`Signature.plain`) and its highlighted form. The
list is kept tidy: no span is empty, and plain text that comes together is one span.
-/

namespace OpcodeLens

/-- What a piece of a signature is. -/
inductive SpanKind where
  /-- The identifier. -/
  | address
  /-- The name of the command. -/
  | name
  /-- The name of an input or output. -/
  | paramName
  /-- The type of an input or output. -/
  | paramType
  /-- The class. -/
  | className
  /-- The name in the class. -/
  | memberName
  /-- Where a result goes, or its type. -/
  | returnVarType
  /-- Anything else. -/
  | plain
  deriving DecidableEq, Repr

/-- A piece of a signature. -/
structure Span where
  /-- What it is. -/
  kind : SpanKind
  /-- Its text. -/
  text : Text
  deriving DecidableEq, Repr

namespace Signature

/-! ### Lists of spans -/

/-- A span of plain text. -/
def plainSpan (text : Text) : Span := ⟨.plain, text⟩

/-- Puts a span in front of a tidy list and keeps it tidy. -/
def cons (span : Span) (spans : List Span) : List Span :=
  if span.text.isEmpty then spans
  else
    match span.kind, spans with
    | .plain, ⟨.plain, text⟩ :: rest => ⟨.plain, span.text ++ text⟩ :: rest
    | _, _ => span :: spans

/-- Drops empty spans and joins neighbours of plain text. -/
def tidy (spans : List Span) : List Span := spans.foldr cons []

/-- Groups of spans with a separator between neighbours. -/
def separate (separator : Text) : List (List Span) → List Span
  | [] => []
  | [group] => group
  | group :: next :: rest => group ++ plainSpan separator :: separate separator (next :: rest)

/-- The text of a list of spans. -/
def concat (spans : List Span) : Text := spans.flatMap (·.text)

/-! ### Inputs and outputs -/

/-- A part that is there and not blank. -/
def nonBlank? (part : Option Text) : Option Text := part.filter (!Text.isAllBlank ·)

/-- How the source of a variable is shown. -/
def sourceName (source : Text) : Text :=
  if source = "var_any".toList then "var".toList
  else if source = "var_global".toList then "global var".toList
  else if source = "var_local".toList then "local var".toList
  else source

/-- A span of the given kind for a part that is not blank, as a group of its own. -/
def part (kind : SpanKind) (wrap : Text → Text) (text : Option Text) : List (List Span) :=
  match nonBlank? text with
  | some t => [[⟨kind, wrap t⟩]]
  | none => []

/-- A text in square brackets. -/
def bracketed (text : Text) : Text := '[' :: (text ++ [']'])

/-- A text in braces. -/
def braced (text : Text) : Text := '\x7b' :: (text ++ ['\x7d'])

/-- An input in the style by name: `{name} [type] source`, each part that is not blank. -/
def opcodeInput (p : Param) : List Span :=
  separate [' ']
    (part .paramName braced p.name ++ part .paramType bracketed p.type ++ part .plain id p.source)

/-- An output in the style by name: `[source name: type]`. -/
def opcodeOutput (p : Param) : List Span :=
  plainSpan ['['] ::
    ((match p.source.filter (!·.isEmpty) with
      | some source => [⟨.returnVarType, sourceName source⟩, plainSpan [' ']]
      | none => []) ++
     (match nonBlank? p.name with
      | some name => [⟨.paramName, name ++ [':']⟩, plainSpan [' ']]
      | none => []) ++
     [⟨.paramType, p.type.getD []⟩, plainSpan [']']])

/-- An output in the style by class: `name [type]`, each part that is not blank. -/
def memberOutput (p : Param) : List Span :=
  separate [' '] (part .paramName id p.name ++ part .returnVarType bracketed p.type)

/-- An input in the style by class: its name. -/
def memberInput (p : Param) : List Span := [⟨.paramName, p.name.getD []⟩]

/-! ### Signatures -/

/-- The spans of the style by name: the identifier, the outputs, the name, the inputs. An input of
which every part is blank leaves no trace. -/
def opcodeSpans (c : Command) : List Span :=
  [⟨.address, c.id ++ [':']⟩, plainSpan [' ']] ++
    (match c.outputs with
      | some outputs => separate [',', ' '] (outputs.map opcodeOutput) ++ [plainSpan [' ']]
      | none => []) ++
    [⟨.name, c.name⟩, plainSpan [' ']] ++
    (match c.inputs with
      | some inputs => separate [' '] ((inputs.map opcodeInput).filter (!·.isEmpty))
      | none => [])

/-- The spans of the style by class: the outputs, the class and the member, the inputs. -/
def memberSpans (c : Command) : List Span :=
  (match c.outputs with
    | some outputs => separate [',', ' '] (outputs.map memberOutput) ++ [plainSpan [' ', '=', ' ']]
    | none => []) ++
    [⟨.className, c.className.getD []⟩, plainSpan ['.'], ⟨.memberName, c.memberName.getD []⟩,
      plainSpan ['(']] ++
    (match c.inputs with
      | some inputs => separate [',', ' '] (inputs.map memberInput)
      | none => []) ++
    [plainSpan [')']]

/-- The spans of a command's signature. -/
def spans (c : Command) (style : Style) : List Span :=
  match style with
  | .opcode => tidy (opcodeSpans c)
  | .classMember => tidy (memberSpans c)

/-- The signature of a command as plain text. -/
def plain (c : Command) (style : Style) : Text := concat (spans c style)

end Signature

end OpcodeLens
