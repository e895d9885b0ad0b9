import OpcodeLens.Json.Printer
import OpcodeLens.Json.Reader
import OpcodeLens.Number.Decimal
import OpcodeLens.Number.Numeral

/-!
# JSON values

A value is what a document means where its schema is not known beforehand: numbers are 64-bit
integers or binary floating-point numbers, and strings are texts. Not every document has a value
(`Json.hasValue`): every string must stand for a text, every number must be within range, and
nesting has a limit.
-/

namespace OpcodeLens

namespace Json

/-- The value of a number that is not an integer of at most 64 bits. -/
def floatValue? (spelling : Text) : Option Rat := Numeral.read? spelling

/-- Is the spelling that of an integer that is kept as one? -/
def isInteger64 (spelling : Text) : Bool :=
  match spelling with
  | '-' :: digits => ((digitsValue? digits).filter fun n => 0 < n && n ≤ Nat.pow 2 63).isSome
  | digits => ((digitsValue? digits).filter (· < Nat.pow 2 64)).isSome

/-- A number, spelled by its value. -/
def canonicalNumber (spelling : Text) : Text :=
  if isInteger64 spelling then spelling
  else
    match floatValue? spelling with
    | some r =>
      if r.num = 0 then ['0', '.', '0'] else Number.writeBy Decimal.compact .even r
    | none => spelling

mutual

/-- Does the document have a value, with `depth` further levels of nesting allowed? -/
def hasValue (depth : Nat) : Json → Bool
  | .null => true
  | .bool _ => true
  | .num spelling => (floatValue? spelling).isSome
  | .str t => t.isSome
  | .arr items => match depth with
    | 0 => false
    | depth + 1 => itemsHaveValue depth items
  | .obj members => match depth with
    | 0 => false
    | depth + 1 => membersHaveValue depth members

/-- Do all items have values? -/
def itemsHaveValue (depth : Nat) : List Json → Bool
  | [] => true
  | item :: rest => hasValue depth item && itemsHaveValue depth rest

/-- Do all members have names and values? -/
def membersHaveValue (depth : Nat) : List (Option Text × Json) → Bool
  | [] => true
  | (key, value) :: rest => key.isSome && hasValue depth value && membersHaveValue depth rest

end

/-- Reads a document that has a value; nesting goes no deeper than 127 levels. -/
def readValue? (document : Text) : Option Json := (read? document).filter (hasValue 127)

/-- The kind of value that stands where another was expected, in words. -/
def describe : Json → Text
  | .null => "null".toList
  | .bool b => "boolean `".toList ++ (if b then "true" else "false").toList ++ "`".toList
  | .num spelling =>
    (if isInteger64 spelling then "integer `" else "floating point `").toList ++
      canonicalNumber spelling ++ "`".toList
  | .str t => "string ".toList ++ quote (t.getD [])
  | .arr _ => "sequence".toList
  | .obj _ => "map".toList

end Json

end OpcodeLens
