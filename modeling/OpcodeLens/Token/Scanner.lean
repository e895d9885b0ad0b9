import OpcodeLens.Text.Blank
import OpcodeLens.Token.Basic

/-!
# Scanning scripts

`Token.scan` cuts a script into tokens. It never fails, and it loses nothing but blanks and `//`
comments: a character that starts no token becomes an `unknown` token of its own. Lines are scanned
one by one, so that strings and comments never reach past the end of a line.

At a place where a token starts, `munch` says what kind it is and how far it reaches; the longest
candidate is taken.
-/

namespace OpcodeLens

namespace Token

/-! ### Token starts -/

/-- The kind of a two-character operator. -/
def operatorKind? : Char → Char → Option TokenKind
  | '=', '=' => some .equalEqual
  | '+', '=' => some .plusEquals
  | '-', '=' => some .minusEquals
  | _, _ => none

/-- The kind of a token that is always a single character. -/
def singleKind? : Char → Option TokenKind
  | '(' => some .openRoundBracket
  | ')' => some .closeRoundBracket
  | '[' => some .openSquareBracket
  | ']' => some .closeSquareBracket
  | '=' => some .equals
  | ',' => some .comma
  | '.' => some .dot
  | _ => none

/-- The kind of a name that is tagged by its first character. -/
def tagKind? : Char → Option TokenKind
  | '@' => some .labelJump
  | ':' => some .labelDefine
  | '$' => some .globalVar
  | _ => none

/-- The kind of a number that is marked by the character after its digits. -/
def markKind? : Char → Option TokenKind
  | '@' => some .localVar
  | 'i' => some .arraySize
  | 'f' => some .arraySize
  | 's' => some .arraySize
  | 'v' => some .arraySize
  | _ => none

/-! ### Token extents -/

/-- The number of characters that start the text and lie in the class `admits`. -/
def runLength (admits : Char → Bool) (text : Text) : Nat := (text.takeWhile admits).length

/-- The number of characters a string takes after its opening quote: up to its closing quote, or all
that is left. A backslash takes the next character with it, if there is one. -/
def quotedLength (quote : Char) : Text → Nat
  | [] => 0
  | [_] => 1
  | c :: d :: rest =>
    if c = '\\' then 2 + quotedLength quote rest
    else if c = quote then 1
    else 1 + quotedLength quote (d :: rest)

/-- The kind of a number, given the text after its first digit, and how many characters of that text
belong to it. -/
def munchNumber (rest : Text) : TokenKind × Nat :=
  let digits := runLength Char.isDigit rest
  match rest.drop digits with
  | [] => (.number, digits)
  | c :: tail =>
    match markKind? c with
    | some kind => (kind, digits + 1)
    | none =>
      if c = '.' then (.float, digits + 1 + runLength Char.isDigit tail) else (.number, digits)

/-- The kind of the token that starts with `c`, given the text after `c`, and how many characters of
that text belong to it. -/
def munch (c : Char) (rest : Text) : TokenKind × Nat :=
  match rest.head?.bind (operatorKind? c) with
  | some kind => (kind, 1)
  | none =>
    match singleKind? c with
    | some kind => (kind, 0)
    | none =>
      match tagKind? c with
      | some kind => (kind, runLength Text.isNameChar rest)
      | none =>
        if c.isAlpha || c = '_' then (.identifier, runLength Text.isNameChar rest)
        else if c.isDigit then munchNumber rest
        else if c = '\'' || c = '"' then (.string, quotedLength c rest)
        else (.unknown, 0)

/-! ### Lines and scripts -/

/-- The tokens of the part of line `line` that starts at column `col`. -/
def scanFrom (line col : Nat) : Text → List Token
  | [] => []
  | c :: rest =>
    if Text.isBlank c then scanFrom line (col + 1) rest
    else if c = '/' && rest.head? = some '/' then []
    else
      let (kind, n) := munch c rest
      ⟨kind, c :: rest.take n, line, col⟩ :: scanFrom line (col + 1 + n) (rest.drop n)
termination_by text => text.length
decreasing_by
  · exact Nat.lt_succ_self rest.length
  · exact Nat.lt_succ_of_le ((List.drop_sublist n rest).length_le)

/-- The tokens of a line, closed by its `newLine`. -/
def scanLine (line : Nat) (text : Text) : List Token :=
  scanFrom line 0 text ++ [⟨.newLine, ['\n'], line, text.length⟩]

/-- The tokens of lines that are numbered from `line` on, closed by the `eof`. -/
def scanLines (line : Nat) : List Text → List Token
  | [] => [⟨.eof, [], line, 0⟩]
  | text :: rest => scanLine line text ++ scanLines (line + 1) rest

/-- The tokens of a script. -/
def scan (text : Text) : List Token := scanLines 1 text.lines

end Token

end OpcodeLens
