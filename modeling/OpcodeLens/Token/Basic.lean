import OpcodeLens.Text.Position

/-!
# Tokens

A token is a piece of one script line. It knows its line, counted from one, and its column, counted
in characters from zero; `Token.range` turns that into the positions editors use. Two kinds of token
have no place in the text of a line: `newLine` closes each line and `eof` the script.
-/

namespace OpcodeLens

/-- The kinds of token. -/
inductive TokenKind where
  /-- `(` -/
  | openRoundBracket
  /-- `)` -/
  | closeRoundBracket
  /-- `[` -/
  | openSquareBracket
  /-- `]` -/
  | closeSquareBracket
  /-- `=` -/
  | equals
  /-- `,` -/
  | comma
  /-- `.` -/
  | dot
  /-- `==` -/
  | equalEqual
  /-- `+=` -/
  | plusEquals
  /-- `-=` -/
  | minusEquals
  /-- `@label`, a jump to a label -/
  | labelJump
  /-- `:label`, the place a label names -/
  | labelDefine
  /-- `$name`, a global variable -/
  | globalVar
  /-- `0@`, a local variable -/
  | localVar
  /-- `10s`, `3v`: an array size with its element type -/
  | arraySize
  /-- a plain name -/
  | identifier
  /-- a whole number -/
  | number
  /-- a number with a point -/
  | float
  /-- a quoted string, closed or running to the end of its line -/
  | string
  /-- a single character that starts none of the above -/
  | unknown
  /-- the end of a line -/
  | newLine
  /-- the end of the script -/
  | eof
  deriving DecidableEq, Repr

/-- A token of a script. -/
structure Token where
  /-- What it is. -/
  kind : TokenKind
  /-- Its characters. -/
  text : Text
  /-- Its line, from one. -/
  line : Nat
  /-- Its column in characters, from zero. -/
  col : Nat
  deriving DecidableEq, Repr

namespace Token

/-- The name of a token that is tagged by its first character, without the tag; the whole text of
any other token. -/
def bareName (t : Token) : Text :=
  match t.kind with
  | .labelJump | .labelDefine | .globalVar => t.text.drop 1
  | _ => t.text

/-- Is the token a label, defined or jumped to? -/
def isLabel (t : Token) : Bool := t.kind = .labelDefine || t.kind = .labelJump

/-- The UTF-16 column of a character column on line `line` (from zero). A line that does not exist
keeps the column as it is. -/
def unitColumn (lines : List Text) (line col : Nat) : Nat :=
  match lines[line]? with
  | some text => Text.unitLength (text.take col)
  | none => col

/-- The stretch of a document that a token covers, given the document's lines. -/
def range (lines : List Text) (t : Token) : Range :=
  let line := t.line - 1
  let start := unitColumn lines line t.col
  ⟨⟨line, start⟩, ⟨line, start + t.text.unitLength⟩⟩

end Token

end OpcodeLens
