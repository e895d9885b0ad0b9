import OpcodeLens.Text.Basic

/-!
# JSON documents

`Json` is the tree of a JSON document as it is written: the members of an object stand in their
order, repeated names included, and a number keeps its spelling. What a repeated name or a spelling
means is left to whoever decodes the tree.
-/

namespace OpcodeLens

/-- A JSON document. -/
inductive Json where
  /-- `null` -/
  | null
  /-- `true` or `false` -/
  | bool (value : Bool)
  /-- A number, as it is spelled. -/
  | num (spelling : Text)
  /-- A string; `none` if an escape in it names half of a surrogate pair, which stands for no text.
  -/
  | str (text : Option Text)
  /-- An array. -/
  | arr (items : List Json)
  /-- An object, with its members in the order in which they are written. -/
  | obj (members : List (Option Text × Json))

namespace Json

/-! ### Building -/

/-- The string with the given text. -/
def text (t : Text) : Json := .str (some t)

/-- The string with the given text. -/
def string (s : String) : Json := .text s.toList

/-- A natural number. -/
def nat (n : Nat) : Json := .num (Text.ofNat n)

/-- An integer. -/
def int (n : Int) : Json := .num (Text.ofInt n)

/-- An object with the given members. -/
def object (members : List (String × Json)) : Json :=
  .obj (members.map fun (name, value) => (some name.toList, value))

/-- The encoded value, or `null` for none. -/
def ofOption (encode : α → Json) : Option α → Json
  | some a => encode a
  | none => .null

/-! ### Reading -/

/-- Is this `null`? -/
def isNull : Json → Bool
  | .null => true
  | _ => false

/-- The text of a string. -/
def asText? : Json → Option Text
  | .str t => t
  | _ => none

/-- The items of an array. -/
def asArray? : Json → Option (List Json)
  | .arr items => some items
  | _ => none

/-- A truth value. -/
def asBool? : Json → Option Bool
  | .bool b => some b
  | _ => none

/-- The value of a numeral of decimal digits; there must be at least one. -/
def digitsValue? (digits : Text) : Option Nat :=
  if !digits.isEmpty && digits.all Char.isDigit then
    some (digits.foldl (fun n c => 10 * n + (c.toNat - '0'.toNat)) 0)
  else none

/-- A number that is spelled as a natural number. -/
def asNat? : Json → Option Nat
  | .num spelling => digitsValue? spelling
  | _ => none

/-- The value of a member of an object; of repeated members the last one counts. -/
def field? (name : String) : Json → Option Json
  | .obj members => (members.reverse.find? fun (key, _) => key = some name.toList).map (·.2)
  | _ => none

end Json

end OpcodeLens
