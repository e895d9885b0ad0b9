import OpcodeLens.Editor.Hover

/-!
# Completion

What is offered at the cursor: after `owner.` the members of the class and of the enumeration of
that name, anywhere else the names of all classes, enumerations and commands. Members carry a sort
key, six digits wide, so that editors keep their order.
-/

namespace OpcodeLens

namespace Completion

/-- What an item stands for. -/
inductive Kind where
  /-- A member of a class. -/
  | method
  /-- A command. -/
  | function
  /-- A class. -/
  | classKind
  /-- An enumeration. -/
  | enumKind
  /-- A member of an enumeration. -/
  | enumMember
  deriving DecidableEq, Repr

/-- Something to offer at the cursor. -/
structure Item where
  /-- What is inserted. -/
  label : Text
  /-- What it stands for. -/
  kind : Kind
  /-- A line about it. -/
  detail : Text
  /-- More about it. -/
  documentation : Option Text := none
  /-- The key by which editors order it. -/
  sortText : Option Text := none
  deriving DecidableEq, Repr

/-- The characters after which editors ask for completion on their own. -/
def triggers : List Text := [['.']]

/-- The sort key of the item at a place of the list. -/
def sortKey (place : Nat) : Text :=
  let digits := Text.ofNat place
  List.replicate (6 - digits.length) '0' ++ digits

/-- The items for class members, numbered from `place`. -/
def methodItems (owner : Text) (place : Nat) : List Command → List Item
  | [] => []
  | c :: rest =>
    match c.memberName with
    | none => methodItems owner place rest
    | some member =>
      { label := member
        kind := .method
        detail := "(Class member) ".toList ++ owner ++ '.' :: member
        documentation := some (Hover.describe c .classMember)
        sortText := some (sortKey place) } :: methodItems owner (place + 1) rest

/-- The items for members of an enumeration, numbered from `place`. -/
def elementItems (owner : Text) (place : Nat) : List Enumeration.Member → List Item
  | [] => []
  | m :: rest =>
    { label := m.name
      kind := .enumMember
      detail := "(Enum member) ".toList ++ owner ++ '.' :: m.name ++ " = ".toList ++ m.value.display
      sortText := some (sortKey place) } :: elementItems owner (place + 1) rest

/-- The members of the class and of the enumeration called `owner`. -/
def memberItems (cat : Catalogue) (owner : Text) : List Item :=
  methodItems owner 0 ((cat.classMembers? owner).getD []) ++
    elementItems owner 0 (((cat.enum? owner).map (·.members)).getD [])

/-- The item for a command name, about the first command that has it. -/
def commandItem? : Text × List Command → Option Item
  | (_, []) => none
  | (name, c :: _) =>
    some {
      label := name
      kind := .function
      detail := "(Opcode) ".toList ++ name
      documentation := some (Hover.describe c .opcode) }

/-- The item for the name of a class or enumeration. -/
def nameItem (kind : Kind) (detail name : Text) : Item :=
  { label := name, kind := kind, detail := detail }

/-- All classes, enumerations and command names. -/
def topItems (cat : Catalogue) : List Item :=
  cat.byClass.keys.map (nameItem .classKind "Class".toList) ++
    cat.enums.keys.map (nameItem .enumKind "Enum".toList) ++
    cat.byName.entries.filterMap commandItem?

/-- The word before the dot that ends the text. -/
def ownerBefore? (head : Text) : Option Text :=
  match head.reverse with
  | '.' :: rest =>
    let owner := (rest.takeWhile Text.isWord).reverse
    if owner.isEmpty then none else some owner
  | _ => none

/-- What is offered at a byte offset. -/
def atOffset (cat : Catalogue) (text : Text) (offset : Nat) : List Item :=
  match ownerBefore? (text.lineHead offset) with
  | some owner => memberItems cat owner
  | none => topItems cat

/-- What is offered at a position; nothing on a line that does not exist. -/
def atPosition (cat : Catalogue) (text : Text) (p : Position) : List Item :=
  match text.offsetAt? p with
  | some offset => atOffset cat text offset
  | none => []

end Completion

end OpcodeLens
