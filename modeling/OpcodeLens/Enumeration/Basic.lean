import OpcodeLens.Number.Decimal
import OpcodeLens.Json.Printer

/-!
# Enumerations

An enumeration is a named list of members, each with a numeric or textual value.
-/

namespace OpcodeLens

namespace Enumeration

/-- The value of a member. -/
inductive Value where
  /-- A number, as the exact value of its binary form. -/
  | number (value : Rat)
  /-- Any other value, as it is written. -/
  | text (value : Text)
  deriving DecidableEq, Repr

/-- The value as it is shown. -/
def Value.display : Value → Text
  | .number r => Number.display r
  | .text t => t

/-- The value in a JSON document. -/
def Value.toJson : Value → Json
  | .number r => .num (Number.toJsonText r)
  | .text t => .text t

/-- A member of an enumeration. -/
structure Member where
  /-- Its name. -/
  name : Text
  /-- Its value. -/
  value : Value
  deriving DecidableEq, Repr

end Enumeration

/-- A named list of members. -/
structure Enumeration where
  /-- Its name. -/
  name : Text
  /-- Its members, in the order in which they are declared. -/
  members : List Enumeration.Member
  deriving DecidableEq, Repr

/-- The first member with the given name. -/
def Enumeration.member? (e : Enumeration) (name : Text) : Option Enumeration.Member :=
  e.members.find? (·.name = name)

end OpcodeLens
