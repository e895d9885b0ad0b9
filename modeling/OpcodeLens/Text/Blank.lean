import OpcodeLens.Text.Basic
import OpcodeLens.Text.Table

/-!
# Blanks and words

The two character classes of the source formats. A blank is a character with the property
White_Space; a word character is a letter, mark, decimal digit, connector punctuation or joiner.
Names in scripts are narrower: `isNameChar` admits ASCII letters, digits and the underscore only.
-/

namespace OpcodeLens

namespace Text

/-- Is the character white space? -/
def isBlank (c : Char) : Bool :=
  if c.toNat < 0x80 then c = ' ' || (9 ≤ c.toNat && c.toNat ≤ 13)
  else Table.covers Table.blank c.toNat

/-- Is the character part of a word? -/
def isWord (c : Char) : Bool :=
  if c.toNat < 0x80 then c.isAlphanum || c = '_' else Table.covers Table.word c.toNat

/-- Is the character part of a script name: an ASCII letter, a digit or an underscore? -/
def isNameChar (c : Char) : Bool := c.isAlphanum || c = '_'

/-- The text without the blanks it starts with. -/
def trimStart (text : Text) : Text := text.dropWhile isBlank

/-- The text without the blanks it ends with. -/
def trimEnd (text : Text) : Text := (text.reverse.dropWhile isBlank).reverse

/-- The text without the blanks around it. -/
def trim (text : Text) : Text := trimEnd (trimStart text)

/-- Is the text empty or made of blanks only? -/
def isAllBlank (text : Text) : Bool := text.all isBlank

end Text

end OpcodeLens
