import OpcodeLens.Text.Lowercase

/-!
# Commands

A command is an instruction of the scripting language. It is called by its name, and, if it belongs
to a class, also as a member of that class; the two ways of writing it are the two signature styles.
-/

namespace OpcodeLens

/-- The two ways of writing a command. -/
inductive Style where
  /-- By its name, with its identifier. -/
  | opcode
  /-- As a member of its class. -/
  | classMember
  deriving DecidableEq, Repr

/-- An input or output of a command; each part may be missing. -/
structure Param where
  /-- Its name. -/
  name : Option Text := none
  /-- Its type. -/
  type : Option Text := none
  /-- Where its value comes from or goes to. -/
  source : Option Text := none
  deriving DecidableEq, Repr

/-- A command. -/
structure Command where
  /-- Its identifier. -/
  id : Text
  /-- Its name, in lower case. -/
  name : Text
  /-- The class it belongs to. -/
  className : Option Text := none
  /-- Its name in that class. -/
  memberName : Option Text := none
  /-- Its inputs. -/
  inputs : Option (List Param) := none
  /-- Its outputs. -/
  outputs : Option (List Param) := none
  /-- What it does, in a sentence. -/
  shortDesc : Text := []
  /-- Is it there in name only? -/
  isUnsupported : Bool := false
  deriving DecidableEq, Repr

namespace Command

/-- A command with nothing but an identifier and a name. -/
def new (id name : Text) : Command := ⟨id, Text.lower name, none, none, none, none, [], false⟩

/-- The class and the name in it, if the command has both. -/
def classMember? (c : Command) : Option (Text × Text) :=
  match c.className, c.memberName with
  | some owner, some member => some (owner, member)
  | _, _ => none

/-- The styles in which the command can be written. -/
def styles (c : Command) : List Style :=
  if c.classMember?.isSome then [.opcode, .classMember] else [.opcode]

end Command

end OpcodeLens
