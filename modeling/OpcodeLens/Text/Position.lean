import OpcodeLens.Text.Basic

/-!
# Positions

Editors address a document by line and column, both from zero, with the column counted in UTF-16
units; the library addresses it by byte offset. `Text.positionAt` and `Text.offsetAt?` go from one
to the other:

* an offset past the end counts as the end, one inside a character as the end of that character;
* a column past the end of its line counts as the line's end, one inside a character as the end of
  that character; a line past the last one has no offset.
-/

namespace OpcodeLens

/-- A place in a document, as editors address it. -/
structure Position where
  /-- Number of line feeds before the place. -/
  line : Nat
  /-- Number of UTF-16 units between the start of the line and the place. -/
  character : Nat
  deriving DecidableEq, Repr

/-- A stretch of a document between two positions. -/
structure Range where
  /-- Where the stretch starts. -/
  start : Position
  /-- Where it ends. -/
  stop : Position
  deriving DecidableEq, Repr

/-- A stretch of a text between two byte offsets. -/
structure ByteRange where
  /-- Offset of the first byte. -/
  start : Nat
  /-- Offset after the last byte. -/
  stop : Nat
  deriving DecidableEq, Repr

/-- The start of a document. -/
def Position.zero : Position := ⟨0, 0⟩

/-- The position after a character that stands at `p`. -/
def Position.after (p : Position) (c : Char) : Position :=
  if c = '\n' then ⟨p.line + 1, 0⟩ else ⟨p.line, p.character + Text.units c⟩

namespace Text

/-- The position `offset` bytes into a text that starts at `p`. -/
def positionFrom (p : Position) : Text → Nat → Position
  | [], _ => p
  | _ :: _, 0 => p
  | c :: rest, offset + 1 => positionFrom (p.after c) rest (offset + 1 - c.utf8Size)

/-- The position of a byte offset. -/
def positionAt (text : Text) (offset : Nat) : Position := positionFrom .zero text offset

/-- The byte offset of `target` in a text that starts at position `p` and byte offset `offset`. -/
def offsetFrom? (target : Position) (offset : Nat) (p : Position) : Text → Option Nat
  | [] => if p.line = target.line then some offset else none
  | c :: rest =>
    if p.line = target.line ∧ (target.character ≤ p.character ∨ c = '\n') then some offset
    else offsetFrom? target (offset + c.utf8Size) (p.after c) rest

/-- The byte offset of a position; `none` if the text has no such line. -/
def offsetAt? (text : Text) (target : Position) : Option Nat := offsetFrom? target 0 .zero text

/-- The positions of the two ends of a byte range. -/
def rangeOf (text : Text) (bytes : ByteRange) : Range :=
  ⟨text.positionAt bytes.start, text.positionAt bytes.stop⟩

/-- The part of the text between the start of a line and a byte offset on it. An offset past the end
counts as the end; one inside a character leaves nothing. -/
def lineHead (text : Text) (offset : Nat) : Text :=
  match text.splitAtByte (min offset text.byteLength) with
  | some (before, _) => (before.reverse.takeWhile (· ≠ '\n')).reverse
  | none => []

end Text

end OpcodeLens
