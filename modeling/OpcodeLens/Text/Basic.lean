/-!
# Text

All text of the library is a list of Unicode scalar values, and everything below walks it by
recursion on that list. Documents are addressed in three units:

* characters, one per scalar value (token columns),
* bytes of the UTF-8 form (`Text.byteLength`, `Text.splitAtByte`),
* UTF-16 units (`Text.unitLength`), the unit in which editors count columns.
-/

namespace OpcodeLens

/-- Text is a list of Unicode scalar values. -/
abbrev Text := List Char

namespace Text

/-! ### Measures -/

/-- The number of UTF-16 units of a character: two for those outside the basic plane. -/
def units (c : Char) : Nat := if c.toNat < 0x10000 then 1 else 2

/-- The number of bytes of the text in UTF-8. -/
def byteLength : Text → Nat
  | [] => 0
  | c :: rest => c.utf8Size + byteLength rest

/-- The number of UTF-16 units of the text. -/
def unitLength : Text → Nat
  | [] => 0
  | c :: rest => units c + unitLength rest

@[simp] theorem byteLength_append (a b : Text) :
    byteLength (a ++ b) = byteLength a + byteLength b := by
  induction a with
  | nil => simp [byteLength]
  | cons c rest ih => simp [byteLength, ih, Nat.add_assoc]

@[simp] theorem unitLength_append (a b : Text) :
    unitLength (a ++ b) = unitLength a + unitLength b := by
  induction a with
  | nil => simp [unitLength]
  | cons c rest ih => simp [unitLength, ih, Nat.add_assoc]

/-! ### Cutting -/

/-- The text before and after a byte offset. There is no such cut past the end of the text or
inside a character of several bytes. -/
def splitAtByte : Text → Nat → Option (Text × Text)
  | text, 0 => some ([], text)
  | [], _ + 1 => none
  | c :: rest, offset + 1 =>
    if c.utf8Size ≤ offset + 1 then
      (splitAtByte rest (offset + 1 - c.utf8Size)).map fun (before, after) => (c :: before, after)
    else none

/-- The text after `head`, if the text starts with it. -/
def dropHead? : (head text : Text) → Option Text
  | [], text => some text
  | _ :: _, [] => none
  | h :: head, c :: rest => if h = c then dropHead? head rest else none

theorem length_lt_of_dropHead? {head text rest : Text} (hne : head ≠ [])
    (h : dropHead? head text = some rest) : rest.length < text.length := by
  induction head generalizing text with
  | nil => exact absurd rfl hne
  | cons a head ih =>
    cases text with
    | nil => simp [dropHead?] at h
    | cons c tail =>
      simp only [dropHead?] at h
      split at h
      · cases head with
        | nil =>
          simp only [dropHead?, Option.some.injEq] at h
          simp [h]
        | cons b head =>
          have := ih (by simp) h
          simp only [List.length_cons]
          omega
      · simp at h

/-- The text before and after the first occurrence of a character. -/
def splitFirst? (mark : Char) : Text → Option (Text × Text)
  | [] => none
  | c :: rest =>
    if c = mark then some ([], rest)
    else (splitFirst? mark rest).map fun (before, after) => (c :: before, after)

/-- The text without its last character, if that character is `mark`. -/
def dropLastIf (mark : Char) (text : Text) : Text :=
  if text.getLast? = some mark then text.dropLast else text

/-- Does `part` occur in the text? -/
def contains (part : Text) : Text → Bool
  | [] => part.isEmpty
  | c :: rest => part.isPrefixOf (c :: rest) || contains part rest

/-- The pieces joined with a separator between neighbours. -/
def join (separator : Text) : List Text → Text
  | [] => []
  | [piece] => piece
  | piece :: next :: rest => piece ++ separator ++ join separator (next :: rest)

/-! ### Lines -/

/-- Puts a character in front of the first line. -/
def consLine (c : Char) : List Text → List Text
  | [] => [[c]]
  | line :: rest => (c :: line) :: rest

/-- The pieces between line feeds; a text without one is a single piece. -/
def splitLines : Text → List Text
  | [] => [[]]
  | c :: rest => if c = '\n' then [] :: splitLines rest else consLine c (splitLines rest)

/-- The lines of a text: it is cut at each line feed, and a carriage return that ends a line is
not part of it. -/
def lines (text : Text) : List Text := (splitLines text).map (dropLastIf '\r')

/-! ### Digits and numerals -/

/-- The value of a hexadecimal digit, in either case. -/
def hexDigit? (c : Char) : Option Nat :=
  if c.isDigit then some (c.toNat - '0'.toNat)
  else if 'a' ≤ c ∧ c ≤ 'f' then some (c.toNat - 'a'.toNat + 10)
  else if 'A' ≤ c ∧ c ≤ 'F' then some (c.toNat - 'A'.toNat + 10)
  else none

/-- The decimal numeral of a natural number. -/
def ofNat (n : Nat) : Text := Nat.toDigits 10 n

/-- The decimal numeral of an integer, with a minus sign in front of a negative one. -/
def ofInt : Int → Text
  | .ofNat n => ofNat n
  | .negSucc n => '-' :: ofNat (n + 1)

end Text

end OpcodeLens
