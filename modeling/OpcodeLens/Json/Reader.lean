import OpcodeLens.Json.Basic

/-!
# Reading JSON

`Json.read?` reads a document by the strict grammar: no comments, no trailing commas, no text after
the value, blanks are space, tab, carriage return and line feed, and a string holds no control
character below U+0020. It works in two passes, each a machine that takes one item at a time, so
that the depth of a document is bounded by nothing:

* `Lexing.step` cuts the characters into lexemes,
* `Parsing.step` builds the tree, keeping the enclosing arrays and objects in a list of frames.
-/

namespace OpcodeLens

namespace Json

/-! ### Lexemes -/

/-- The smallest pieces of a document. -/
inductive Lexeme where
  /-- `[` -/
  | openArray
  /-- `]` -/
  | closeArray
  /-- `{` -/
  | openObject
  /-- `}` -/
  | closeObject
  /-- `:` -/
  | colon
  /-- `,` -/
  | comma
  /-- A string, or a number, or one of the three names. -/
  | scalar (value : Json)

/-- Joins escaped surrogate pairs and turns code points into characters; `none` if half of a pair
stands alone. -/
def ofCodePoints : List Nat → Option Text
  | [] => some []
  | [n] => if 0xD800 ≤ n ∧ n < 0xE000 then none else some [Char.ofNat n]
  | n :: m :: rest =>
    if 0xD800 ≤ n ∧ n < 0xDC00 ∧ 0xDC00 ≤ m ∧ m < 0xE000 then
      (ofCodePoints rest).map (Char.ofNat (0x10000 + (n - 0xD800) * 0x400 + (m - 0xDC00)) :: ·)
    else if 0xD800 ≤ n ∧ n < 0xE000 then none
    else (ofCodePoints (m :: rest)).map (Char.ofNat n :: ·)

/-- The code point of a one-letter escape. -/
def escape? : Char → Option Nat
  | '"' => some 0x22
  | '\\' => some 0x5C
  | '/' => some 0x2F
  | 'b' => some 0x08
  | 'f' => some 0x0C
  | 'n' => some 0x0A
  | 'r' => some 0x0D
  | 't' => some 0x09
  | _ => none

/-- Is the text a whole part of a number: `0`, or digits that start with another one? -/
def isWholePart (digits : Text) : Bool :=
  !digits.isEmpty && (digits.head? ≠ some '0' || digits.length = 1)

/-- Is the text empty, or an exponent with its mark? -/
def isExponent : Text → Bool
  | [] => true
  | mark :: rest =>
    let digits := match rest with
      | '+' :: tail => tail
      | '-' :: tail => tail
      | _ => rest
    (mark = 'e' || mark = 'E') && !digits.isEmpty && digits.all Char.isDigit

/-- Is the text spelled as a number? -/
def isNumber (spelling : Text) : Bool :=
  let unsigned := match spelling with
    | '-' :: rest => rest
    | _ => spelling
  let whole := unsigned.takeWhile Char.isDigit
  let tail := unsigned.dropWhile Char.isDigit
  isWholePart whole &&
    match tail with
    | '.' :: rest =>
      !(rest.takeWhile Char.isDigit).isEmpty && isExponent (rest.dropWhile Char.isDigit)
    | _ => isExponent tail

/-- The value of a run of bare characters: one of the three names, or a number. -/
def ofBare? (chars : Text) : Option Json :=
  if chars = ['n', 'u', 'l', 'l'] then some .null
  else if chars = ['t', 'r', 'u', 'e'] then some (.bool true)
  else if chars = ['f', 'a', 'l', 's', 'e'] then some (.bool false)
  else if isNumber chars then some (.num chars)
  else none

/-- A character of a name or number. -/
def isBareChar (c : Char) : Bool := c.isAlphanum || c = '+' || c = '-' || c = '.'

/-- Where the cutting of lexemes stands: what of the current lexeme has been read, last item first.
-/
inductive Lexing where
  /-- Between lexemes. -/
  | idle
  /-- In a name or number. -/
  | bare (chars : Text)
  /-- In a string. -/
  | quoted (points : List Nat)
  /-- After a backslash in a string. -/
  | escaped (points : List Nat)
  /-- In a numeric escape of which `left` digits are still to come. -/
  | numeric (points : List Nat) (left value : Nat)

/-- Takes one character between lexemes; the lexemes so far are listed last first. -/
def Lexing.start (lexemes : List Lexeme) (c : Char) : Option (Lexing × List Lexeme) :=
  match c with
  | '[' => some (.idle, .openArray :: lexemes)
  | ']' => some (.idle, .closeArray :: lexemes)
  | '\x7b' => some (.idle, .openObject :: lexemes)
  | '\x7d' => some (.idle, .closeObject :: lexemes)
  | ':' => some (.idle, .colon :: lexemes)
  | ',' => some (.idle, .comma :: lexemes)
  | '"' => some (.quoted [], lexemes)
  | ' ' => some (.idle, lexemes)
  | '\t' => some (.idle, lexemes)
  | '\r' => some (.idle, lexemes)
  | '\n' => some (.idle, lexemes)
  | _ => if isBareChar c then some (.bare [c], lexemes) else none

/-- Takes one character. -/
def Lexing.step : Lexing × List Lexeme → Char → Option (Lexing × List Lexeme)
  | (.idle, lexemes), c => Lexing.start lexemes c
  | (.bare chars, lexemes), c =>
    if isBareChar c then some (.bare (c :: chars), lexemes)
    else (ofBare? chars.reverse).bind fun value => Lexing.start (.scalar value :: lexemes) c
  | (.quoted points, lexemes), c =>
    if c = '"' then some (.idle, .scalar (.str (ofCodePoints points.reverse)) :: lexemes)
    else if c = '\\' then some (.escaped points, lexemes)
    else if c.toNat < 0x20 then none
    else some (.quoted (c.toNat :: points), lexemes)
  | (.escaped points, lexemes), c =>
    if c = 'u' then some (.numeric points 4 0, lexemes)
    else (escape? c).map fun n => (.quoted (n :: points), lexemes)
  | (.numeric points left value, lexemes), c =>
    (Text.hexDigit? c).map fun digit =>
      if left ≤ 1 then (.quoted ((16 * value + digit) :: points), lexemes)
      else (.numeric points (left - 1) (16 * value + digit), lexemes)

/-- The lexemes of a document. -/
def lexemes? (document : Text) : Option (List Lexeme) :=
  match document.foldlM Lexing.step (.idle, []) with
  | some (.idle, lexemes) => some lexemes.reverse
  | some (.bare chars, lexemes) =>
    (ofBare? chars.reverse).map fun value => (Lexeme.scalar value :: lexemes).reverse
  | _ => none

/-! ### Trees -/

/-- An array or object that encloses the place being read; its finished parts stand last first. -/
inductive Frame where
  /-- An array. -/
  | array (items : List Json)
  /-- An object, in the value of the member `key`. -/
  | object (members : List (Option Text × Json)) (key : Option Text)

/-- Where the building of the tree stands: what may come next, inside which frames. -/
inductive Parsing where
  /-- A value. -/
  | atValue (frames : List Frame)
  /-- The first item of an array, or its end. -/
  | atFirstItem (frames : List Frame)
  /-- The first name of an object, or its end. -/
  | atFirstKey (frames : List Frame)
  /-- A name of an object, after a comma. -/
  | atKey (members : List (Option Text × Json)) (frames : List Frame)
  /-- The colon after a name. -/
  | atColon (key : Option Text) (members : List (Option Text × Json)) (frames : List Frame)
  /-- What follows a finished value. -/
  | afterValue (value : Json) (frames : List Frame)

/-- Takes a lexeme where a value must stand. -/
def Parsing.start (frames : List Frame) : Lexeme → Option Parsing
  | .scalar value => some (.afterValue value frames)
  | .openArray => some (.atFirstItem frames)
  | .openObject => some (.atFirstKey frames)
  | _ => none

/-- Takes one lexeme. -/
def Parsing.step : Parsing → Lexeme → Option Parsing
  | .atValue frames, lexeme => Parsing.start frames lexeme
  | .atFirstItem frames, .closeArray => some (.afterValue (.arr []) frames)
  | .atFirstItem frames, lexeme => Parsing.start (.array [] :: frames) lexeme
  | .atFirstKey frames, .closeObject => some (.afterValue (.obj []) frames)
  | .atFirstKey frames, .scalar (.str key) => some (.atColon key [] frames)
  | .atKey members frames, .scalar (.str key) => some (.atColon key members frames)
  | .atColon key members frames, .colon => some (.atValue (.object members key :: frames))
  | .afterValue value (.array items :: frames), .comma =>
    some (.atValue (.array (value :: items) :: frames))
  | .afterValue value (.array items :: frames), .closeArray =>
    some (.afterValue (.arr (value :: items).reverse) frames)
  | .afterValue value (.object members key :: frames), .comma =>
    some (.atKey ((key, value) :: members) frames)
  | .afterValue value (.object members key :: frames), .closeObject =>
    some (.afterValue (.obj ((key, value) :: members).reverse) frames)
  | _, _ => none

/-- Reads a document. -/
def read? (document : Text) : Option Json := do
  let lexemes ← lexemes? document
  match ← lexemes.foldlM Parsing.step (.atValue []) with
  | .afterValue value [] => some value
  | _ => none

end Json

end OpcodeLens
