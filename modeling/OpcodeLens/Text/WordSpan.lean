import OpcodeLens.Text.Blank
import OpcodeLens.Text.Position

/-!
# Words under the cursor

A cursor is a byte offset, and the word under it is the longest run of admitted characters that
touches it. Only ASCII characters are admitted, so a run has as many bytes as characters. There are
two kinds of word:

* `Text.simpleWord?`: a name that may carry `@` signs, less one leading `@`;
* `Text.dottedWord?`: a name or `owner.member`, cut from a run that contains a dot.
-/

namespace OpcodeLens

/-- A word of a document and where it stands. -/
structure WordSpan where
  /-- Byte offset of its first character. -/
  start : Nat
  /-- The word itself. -/
  text : Text
  deriving DecidableEq, Repr

/-- The bytes a word covers. -/
def WordSpan.bytes (w : WordSpan) : ByteRange := ⟨w.start, w.start + w.text.byteLength⟩

namespace Text

/-- A character of a simple word. -/
def isSimpleChar (c : Char) : Bool := isNameChar c || c = '@'

/-- A character of a dotted word. -/
def isDottedChar (c : Char) : Bool := isNameChar c || c = '.'

/-- The longest run of characters in the class `admits` that touches the cursor. A cursor past the
end counts as the end; one inside a character touches nothing. -/
def runAt? (admits : Char → Bool) (text : Text) (offset : Nat) : Option WordSpan :=
  match text.splitAtByte (min offset text.byteLength) with
  | none => none
  | some (before, after) =>
    let left : Text := before.reverse.takeWhile admits
    let run := left.reverse ++ after.takeWhile admits
    if run.isEmpty then none else some ⟨before.byteLength - left.byteLength, run⟩

/-- The name or `owner.member` that a run starts with: only one dot is taken, and only when a name
follows it. -/
def dottedHead (run : Text) : Text :=
  let owner := run.takeWhile isNameChar
  match run.dropWhile isNameChar with
  | '.' :: rest =>
    let member := rest.takeWhile isNameChar
    if member.isEmpty then owner else owner ++ '.' :: member
  | _ => owner

/-- The `owner.member` under the cursor, out of a run that has a dot and does not start with one. -/
def dottedWord? (text : Text) (offset : Nat) : Option WordSpan :=
  match runAt? isDottedChar text offset with
  | none => none
  | some run =>
    if run.text.elem '.' && run.text.head? ≠ some '.' then
      some ⟨run.start, dottedHead run.text⟩
    else none

/-- The plain word under the cursor, without one leading `@`. -/
def simpleWord? (text : Text) (offset : Nat) : Option WordSpan :=
  match runAt? isSimpleChar text offset with
  | none => none
  | some ⟨start, '@' :: rest⟩ => if rest.isEmpty then none else some ⟨start + 1, rest⟩
  | some run => some run

end Text

end OpcodeLens
