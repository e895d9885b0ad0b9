import OpcodeLens.Json.Basic

/-!
# Writing JSON

`Json.write` writes a tree without blanks. In strings only what must be escaped is: the quote, the
backslash and the control characters below U+0020, by their short escape where there is one.
-/

namespace OpcodeLens

namespace Json

/-- A hexadecimal digit, in lower case. -/
def hexChar (n : Nat) : Char := Nat.digitChar n

/-- A character as it stands in a string. -/
def writeChar (c : Char) : Text :=
  match c with
  | '"' => ['\\', '"']
  | '\\' => ['\\', '\\']
  | '\n' => ['\\', 'n']
  | '\r' => ['\\', 'r']
  | '\t' => ['\\', 't']
  | _ =>
    if c.toNat = 0x08 then ['\\', 'b']
    else if c.toNat = 0x0C then ['\\', 'f']
    else if c.toNat < 0x20 then
      ['\\', 'u', '0', '0', hexChar (c.toNat / 16), hexChar (c.toNat % 16)]
    else [c]

/-- A text as a string with its quotes. -/
def quote (t : Text) : Text := '"' :: (t.flatMap writeChar ++ ['"'])

mutual

/-- A tree, followed by `tail`. -/
def writeTo : Json → Text → Text
  | .null, tail => 'n' :: 'u' :: 'l' :: 'l' :: tail
  | .bool true, tail => 't' :: 'r' :: 'u' :: 'e' :: tail
  | .bool false, tail => 'f' :: 'a' :: 'l' :: 's' :: 'e' :: tail
  | .num spelling, tail => spelling ++ tail
  | .str t, tail => quote (t.getD []) ++ tail
  | .arr [], tail => '[' :: ']' :: tail
  | .arr (item :: items), tail => '[' :: writeTo item (writeItems items (']' :: tail))
  | .obj [], tail => '\x7b' :: '\x7d' :: tail
  | .obj ((key, value) :: members), tail =>
    '\x7b' :: (quote (key.getD []) ++ ':' :: writeTo value (writeMembers members ('\x7d' :: tail)))

/-- The items after the first one, each after its comma, followed by `tail`. -/
def writeItems : List Json → Text → Text
  | [], tail => tail
  | item :: items, tail => ',' :: writeTo item (writeItems items tail)

/-- The members after the first one, each after its comma, followed by `tail`. -/
def writeMembers : List (Option Text × Json) → Text → Text
  | [], tail => tail
  | (key, value) :: members, tail =>
    ',' :: (quote (key.getD []) ++ ':' :: writeTo value (writeMembers members tail))

end

/-- A tree as text. -/
def write (json : Json) : Text := writeTo json []

end Json

end OpcodeLens
