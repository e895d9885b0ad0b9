import OpcodeLens.Catalogue.Basic
import OpcodeLens.Token.Scanner

/-!
# Semantic highlighting

Every token that means something gets a type and perhaps a modifier (`Highlight.classify`). Names
are looked up in the catalogue: after a dot as a member of what stands before it, before a dot as a
class or enumeration, and otherwise as a command. Editors receive the result as differences: each
token is placed relative to the one before it (`Highlight.deltas`).
-/

namespace OpcodeLens

namespace Highlight

/-- The types of highlighted tokens, in the order in which they are numbered. -/
inductive Kind where
  /-- A command. -/
  | function
  /-- A class. -/
  | classKind
  /-- An enumeration. -/
  | enumKind
  /-- A member of a class. -/
  | method
  /-- A member of an enumeration. -/
  | enumMember
  /-- A variable. -/
  | variable
  /-- A number. -/
  | number
  /-- A string. -/
  | string
  /-- An operator. -/
  | operator
  /-- A label. -/
  | label
  deriving DecidableEq, Repr

/-- The number of a type. -/
def Kind.code : Kind → Nat
  | .function => 0
  | .classKind => 1
  | .enumKind => 2
  | .method => 3
  | .enumMember => 4
  | .variable => 5
  | .number => 6
  | .string => 7
  | .operator => 8
  | .label => 9

/-- The modifiers of highlighted tokens. -/
inductive Modifier where
  /-- The place where something is defined. -/
  | declaration
  /-- Something that cannot be changed. -/
  | readonly
  /-- An unsupported command. -/
  | deprecated
  deriving DecidableEq, Repr

/-- The bit of a modifier; no modifier has none. -/
def Modifier.bits : Option Modifier → Nat
  | none => 0
  | some .declaration => 1
  | some .readonly => 2
  | some .deprecated => 4

/-- The names of the types, in the order of their numbers. -/
def kindNames : List String :=
  ["function", "class", "enum", "method", "enumMember", "variable", "number", "string", "operator",
    "label"]

/-- The names of the modifiers, in the order of their bits. -/
def modifierNames : List String := ["declaration", "readonly", "deprecated"]

/-! ### Classification -/

/-- What a token is. -/
structure Class where
  /-- Its type. -/
  kind : Kind
  /-- Its modifier. -/
  modifier : Option Modifier := none
  deriving DecidableEq, Repr

/-- A command as a token of the given type. -/
def ofCommand (kind : Kind) (c : Command) : Class :=
  ⟨kind, if c.isUnsupported then some .deprecated else none⟩

/-- A name after `owner.`. -/
def classifyMember (cat : Catalogue) (owner member : Text) : Option Class :=
  match cat.classMember? owner member with
  | some c => some (ofCommand .method c)
  | none => (cat.enumMember? owner member).map fun _ => ⟨.enumMember, some .readonly⟩

/-- A name that is not a member. -/
def classifyName (cat : Catalogue) (name : Text) (beforeDot : Bool) : Option Class :=
  if beforeDot && (cat.classMembers? name).isSome then some ⟨.classKind, none⟩
  else if beforeDot && (cat.enum? name).isSome then some ⟨.enumKind, none⟩
  else (cat.opcode? name).map (ofCommand .function)

/-- Is the token a dot? -/
def isDot (t : Option Token) : Bool := t.any (·.kind = .dot)

/-- What a token is, given the two tokens before it (`older` first) and the one after it. A name is
a member if two tokens stand before it and the nearer one is a dot; it belongs to nothing unless the
other one is a name. -/
def classify (cat : Catalogue) (older newer : Option Token) (t : Token) (next : Option Token) :
    Option Class :=
  match t.kind with
  | .identifier =>
    match older, isDot newer with
    | some owner, true =>
      if owner.kind = .identifier then classifyMember cat owner.text t.text else none
    | _, _ => classifyName cat t.text (isDot next)
  | .labelDefine => some ⟨.label, some .declaration⟩
  | .labelJump => some ⟨.label, none⟩
  | .globalVar | .localVar => some ⟨.variable, none⟩
  | .number | .float | .arraySize => some ⟨.number, none⟩
  | .string => some ⟨.string, none⟩
  | .equals | .equalEqual | .plusEquals | .minusEquals => some ⟨.operator, none⟩
  | _ => none

/-- The tokens that are something, with what they are, after the two tokens `older` and `newer`. -/
def classified (cat : Catalogue) (older newer : Option Token) : List Token → List (Token × Class)
  | [] => []
  | t :: rest =>
    let tail := classified cat newer (some t) rest
    match classify cat older newer t rest.head? with
    | some c => (t, c) :: tail
    | none => tail

/-! ### Places -/

/-- A highlighted token at its place in the document. -/
structure Mark where
  /-- Where it starts. -/
  start : Position
  /-- Its length in UTF-16 units. -/
  length : Nat
  /-- What it is. -/
  info : Class
  deriving DecidableEq, Repr

/-- The highlighted tokens of a document, in order. -/
def marks (cat : Catalogue) (text : Text) : List Mark :=
  (classified cat none none (Token.scan text)).map fun (t, c) =>
    let range := t.range text.lines
    ⟨range.start, range.stop.character - range.start.character, c⟩

/-- A highlighted token, placed relative to the one before it. -/
structure Delta where
  /-- Lines from the previous token. -/
  line : Nat
  /-- UTF-16 units from the start of the previous token, or from the start of the line on a new one.
  -/
  start : Nat
  /-- Its length in UTF-16 units. -/
  length : Nat
  /-- What it is. -/
  info : Class
  deriving DecidableEq, Repr

/-- A mark relative to the start of the previous one. -/
def Mark.delta (previous : Position) (m : Mark) : Delta :=
  let line := m.start.line - previous.line
  ⟨line, if line = 0 then m.start.character - previous.character else m.start.character, m.length,
    m.info⟩

/-- Marks relative to one another, the first one to `previous`. -/
def deltasFrom (previous : Position) : List Mark → List Delta
  | [] => []
  | m :: rest => m.delta previous :: deltasFrom m.start rest

/-- The highlighted tokens of a document, each relative to the one before it. -/
def deltas (cat : Catalogue) (text : Text) : List Delta := deltasFrom .zero (marks cat text)

/-- The five numbers of a relative token. -/
def Delta.numbers (d : Delta) : List Nat :=
  [d.line, d.start, d.length, d.info.kind.code, Modifier.bits d.info.modifier]

end Highlight

end OpcodeLens
