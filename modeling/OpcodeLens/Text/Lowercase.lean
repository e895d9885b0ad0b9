import OpcodeLens.Text.Basic
import OpcodeLens.Text.Table

/-!
# Lowercase text

`Text.lower` is the full Unicode lowercase mapping, the one under which names are compared and
searched. It maps character by character, with one exception: a capital sigma that ends a word
becomes the final sigma.
-/

namespace OpcodeLens

namespace Text

/-- The lowercase form of a character on its own. Only the dotted capital I has more than one
character in it. -/
def lowerChar (c : Char) : Text :=
  if c.toNat < 0x80 then [c.toLower]
  else if c.toNat = 0x130 then ['i', Char.ofNat 0x307]
  else [(Table.lowercase.findSome? (·.lower? c.toNat)).getD c]

/-- Does the character have upper and lower case forms? -/
def isCased (c : Char) : Bool :=
  if c.toNat < 0x80 then c.isAlpha else Table.covers Table.cased c.toNat

/-- Is the character passed over when the neighbours of a sigma are looked at? -/
def isCaseIgnorable (c : Char) : Bool :=
  if c.toNat < 0x80 then c = '\'' || c = '.' || c = ':' || c = '^' || c.toNat = 0x60
  else Table.covers Table.caseIgnorable c.toNat

/-- Is the first character that counts a cased one? -/
def startsCased (text : Text) : Bool :=
  ((text.dropWhile isCaseIgnorable).head?.map isCased).getD false

/-- The lowercase form of a capital sigma between two texts (the one before it read backwards): it
ends a word if a cased character stands before it and none after it. -/
def lowerSigma (before after : Text) : Char :=
  if startsCased before && !startsCased after then 'ς' else 'σ'

/-- The lowercase form of a text that follows `before` (read backwards). -/
def lowerAfter (before : Text) : Text → Text
  | [] => []
  | c :: rest =>
    (if c = 'Σ' then [lowerSigma before rest] else lowerChar c) ++ lowerAfter (c :: before) rest

/-- The lowercase form of a text. -/
def lower (text : Text) : Text := lowerAfter [] text

/-- Do two texts agree when the case of ASCII letters is ignored? -/
def sameIgnoringAsciiCase (a b : Text) : Bool := a.map Char.toLower == b.map Char.toLower

end Text

end OpcodeLens
