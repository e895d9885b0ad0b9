import OpcodeLens.Enumeration.Members
import OpcodeLens.OrderedMap

/-!
# Enumeration sources

A source holds blocks `enum NAME … end` among other text. A block starts at the word `enum` that is
followed by blanks and a name, and runs to the first whole word `end` after the name. A header that
starts a line (or follows a block) and has no such `end` is an error; it is looked for in the text
between blocks.
-/

namespace OpcodeLens

namespace Enumeration

/-- A block of a source. -/
structure Block where
  /-- The name after the keyword. -/
  name : Text
  /-- The text between the name and the closing word. -/
  body : Text
  deriving DecidableEq, Repr

/-- A header without a closing `end`: its name, and its line from one. -/
structure Unterminated where
  /-- The name in the header. -/
  name : Text
  /-- The line of its keyword. -/
  line : Nat
  deriving DecidableEq, Repr

/-! ### Headers and blocks -/

/-- The name of the header that starts the text, and what follows the name. -/
def header? (text : Text) : Option (Text × Text) :=
  match Text.dropHead? ['e', 'n', 'u', 'm'] text with
  | none => none
  | some rest =>
    let tail := rest.dropWhile Text.isBlank
    let name := tail.takeWhile Text.isWord
    if rest.head?.any Text.isBlank && !name.isEmpty then some (name, tail.dropWhile Text.isWord)
    else none

/-- Does the text start with `end` and no further word character? -/
def startsWithEnd (text : Text) : Bool :=
  match Text.dropHead? ['e', 'n', 'd'] text with
  | none => false
  | some rest => !rest.head?.any Text.isWord

/-- The text before and after the first whole word `end`; `inWord` says whether a word character
stands right before the text. -/
def splitAtEnd? (inWord : Bool) : Text → Option (Text × Text)
  | [] => none
  | c :: rest =>
    if !inWord && startsWithEnd (c :: rest) then some ([], (c :: rest).drop 3)
    else (splitAtEnd? (Text.isWord c) rest).map fun (body, after) => (c :: body, after)

/-- The block that starts the text, and what follows it. -/
def blockAt? (text : Text) : Option (Block × Text) :=
  match header? text with
  | none => none
  | some (name, rest) => (splitAtEnd? true rest).map fun (body, after) => (⟨name, body⟩, after)

/-- The first block of a text, with the text before and after it. -/
def firstBlock? (inWord : Bool) : Text → Option (Text × Block × Text)
  | [] => none
  | c :: rest =>
    match if inWord then none else blockAt? (c :: rest) with
    | some (block, after) => some ([], block, after)
    | none =>
      (firstBlock? (Text.isWord c) rest).map fun (gap, block, after) => (c :: gap, block, after)

/-- The first header of a text that has only blanks between it and the start of its line, or the
start of the text; `fresh` says whether only blanks precede the text, which starts on line `line`.
-/
def openHeader? (fresh : Bool) (line : Nat) : Text → Option Unterminated
  | [] => none
  | c :: rest =>
    match if fresh then header? (c :: rest) else none with
    | some (name, _) => some ⟨name, line⟩
    | none =>
      if c = '\n' then openHeader? true (line + 1) rest
      else openHeader? (fresh && Text.isBlank c) line rest

/-! ### Sources -/

theorem length_lt_of_header? {text name rest : Text} (h : header? text = some (name, rest)) :
    rest.length < text.length := by
  unfold header? at h
  split at h
  · simp at h
  · next tail htail =>
    have h₀ := Text.length_lt_of_dropHead? (by simp) htail
    have h₁ := length_dropWhile_le Text.isBlank tail
    have h₂ := length_dropWhile_le Text.isWord (tail.dropWhile Text.isBlank)
    dsimp only at h
    split at h
    · simp only [Option.some.injEq, Prod.mk.injEq] at h
      rw [← h.2]
      omega
    · simp at h

theorem length_le_of_splitAtEnd? {inWord : Bool} {text body after : Text}
    (h : splitAtEnd? inWord text = some (body, after)) : after.length ≤ text.length := by
  induction text generalizing inWord body with
  | nil => simp [splitAtEnd?] at h
  | cons c rest ih =>
    simp only [splitAtEnd?] at h
    split at h
    · simp only [Option.some.injEq, Prod.mk.injEq] at h
      rw [← h.2, List.length_drop]
      omega
    · simp only [Option.map_eq_some_iff, Prod.exists, Prod.mk.injEq] at h
      obtain ⟨b, a, hb, -, rfl⟩ := h
      have := ih hb
      simp only [List.length_cons]
      omega

theorem length_lt_of_blockAt? {text after : Text} {block : Block}
    (h : blockAt? text = some (block, after)) : after.length < text.length := by
  unfold blockAt? at h
  split at h
  · simp at h
  · next name rest hr =>
    simp only [Option.map_eq_some_iff, Prod.exists, Prod.mk.injEq] at h
    obtain ⟨b, a, hb, -, rfl⟩ := h
    have h₁ := length_lt_of_header? hr
    have h₂ := length_le_of_splitAtEnd? hb
    omega

/-- What follows the first block is shorter than the text. -/
theorem length_lt_of_firstBlock? {inWord : Bool} {text gap after : Text} {block : Block}
    (h : firstBlock? inWord text = some (gap, block, after)) : after.length < text.length := by
  induction text generalizing inWord gap block with
  | nil => simp [firstBlock?] at h
  | cons c rest ih =>
    simp only [firstBlock?] at h
    split at h
    · next b a hb =>
      simp only [Option.some.injEq, Prod.mk.injEq] at h
      obtain ⟨-, -, rfl⟩ := h
      split at hb
      · simp at hb
      · exact length_lt_of_blockAt? hb
    · simp only [Option.map_eq_some_iff, Prod.exists, Prod.mk.injEq] at h
      obtain ⟨g, b, a, hb, -, rfl, rfl⟩ := h
      have := ih hb
      simp only [List.length_cons]
      omega

/-- The number of line feeds of a text. -/
def lineFeeds (text : Text) : Nat := text.count '\n'

/-- The blocks of a text that starts on line `line`, or the first header without an end. -/
def blocks (inWord : Bool) (line : Nat) (text : Text) : Except Unterminated (List Block) :=
  match h : firstBlock? inWord text with
  | some (gap, block, after) =>
    match openHeader? true line gap with
    | some header => .error header
    | none =>
      have : after.length < text.length := length_lt_of_firstBlock? h
      (blocks true (line + (lineFeeds text - lineFeeds after)) after).map (block :: ·)
  | none =>
    match openHeader? true line text with
    | some header => .error header
    | none => .ok []
termination_by text.length

/-- The enumeration that a block declares. -/
def ofBlock (block : Block) : Enumeration := ⟨block.name, membersOf block.body⟩

/-- The enumerations of a source. A name that is declared again keeps its place and takes the
members of its last block. -/
def parse (text : Text) : Except Unterminated (OrderedMap Enumeration) :=
  (blocks false 1 text).map fun list => .ofList (list.map fun b => (b.name, ofBlock b))

end Enumeration

end OpcodeLens
