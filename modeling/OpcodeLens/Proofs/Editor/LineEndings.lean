import OpcodeLens.Editor.Completion
import OpcodeLens.Editor.Labels
import OpcodeLens.Proofs.Editor.Highlight
import OpcodeLens.Proofs.Editor.Hover
import OpcodeLens.Proofs.Text.LineEndings

/-!
# Line endings do not matter

What the editor is told about a document is the same whether its lines end in a line feed or in a
carriage return and a line feed.  Tokens, highlighting and labels are found on lines, which do not
have the carriage return.  Hovering, completion and the word under the cursor walk over the bytes of
the whole text, carriage returns included; there the same place in both texts has the same word
around it, the same line before it and the same position.

* `Hover.shown` : what an editor shows of a description.
* `Hover.at?_withReturns`, `Completion.atPosition_withReturns`, `Labels.nameAt?_withReturns` : the
  answers for a cursor.
* `line_endings_do_not_matter` : **all answers about a document are the same.**

A cursor past the end of its line is another matter: it stands before the line feed, and so after
the carriage return that belongs to no line.
-/

namespace OpcodeLens

variable {cat : Catalogue} {text : Text} {o o' : Nat} {w w' : WordSpan} {p : Position}

/-- Two searches that go on from related finds end alike, if they do so from each find. -/
theorem map_bind_eq_of_rel {α α' β β' γ : Type} {R : α → α' → Prop} {a : Option α} {a' : Option α'}
    {f : α → Option β} {f' : α' → Option β'} {g : β → γ} {g' : β' → γ} (h : Option.Rel R a a')
    (hnext : ∀ x x', R x x' → (f' x').map g' = (f x).map g) :
    (a'.bind f').map g' = (a.bind f).map g := by
  cases h with
  | none => rfl
  | some h => exact hnext _ _ h

/-! ### Hovering -/

namespace Hover

/-- What an editor shows of a description: its text, and the range of the part it describes. -/
def shown (text : Text) (h : Hover) : Text × Range := (h.body, text.rangeOf h.bytes)

theorem shown_withReturns (h : text.SameWord w w') (body : Text) :
    shown text.withReturns ⟨body, w'.bytes⟩ = shown text ⟨body, w.bytes⟩ := by
  show (body, text.withReturns.rangeOf w'.bytes) = (body, text.rangeOf w.bytes)
  rw [h.rangeOf_eq]

theorem ofDotted?_withReturns (cat : Catalogue) (h : text.SameWord w w') :
    (ofDotted? cat w').map (shown text.withReturns) = (ofDotted? cat w).map (shown text) := by
  rw [ofDotted?, ofDotted?, h.1]
  cases w.text.splitFirst? '.' with
  | none => rfl
  | some parts =>
    obtain ⟨owner, member⟩ := parts
    dsimp only
    cases cat.classMember? owner member with
    | some c => exact congrArg some (shown_withReturns h _)
    | none =>
      cases cat.enumMember? owner member with
      | none => rfl
      | some e => exact congrArg some (shown_withReturns h _)

theorem followsAt_withReturns (h : text.SameCut o o') :
    followsAt text.withReturns o' = followsAt text o := by
  obtain ⟨before, after, rfl, rfl, rfl⟩ := h
  rw [Text.withReturns_append, followsAt_append, followsAt_append, Text.getLast?_withReturns]

theorem ofSimple?_withReturns (cat : Catalogue) (h : text.SameWord w w') :
    (ofSimple? cat text.withReturns w').map (shown text.withReturns) =
      (ofSimple? cat text w).map (shown text) := by
  rw [ofSimple?, ofSimple?, followsAt_withReturns h.sameCut_start, h.1]
  split_ifs
  · rfl
  · cases cat.opcode? w.text with
    | none => rfl
    | some c => exact congrArg some (shown_withReturns h _)

theorem atOffset?_withReturns (h : text.SameCut o o') :
    (atOffset? cat text.withReturns o').map (shown text.withReturns) =
      (atOffset? cat text o).map (shown text) := by
  have hdotted := map_bind_eq_of_rel h.dottedWord? fun _ _ => ofDotted?_withReturns cat
  have hsimple := map_bind_eq_of_rel h.simpleWord? fun _ _ => ofSimple?_withReturns cat
  rw [atOffset?_eq_or, atOffset?_eq_or, Option.map_or, Option.map_or, hdotted, hsimple]

/-- **The same is shown for a cursor.** -/
theorem at?_withReturns (hreturn : '\r' ∉ text) (hfits : text.Fits p) :
    (at? cat text.withReturns p).map (shown text.withReturns) =
      (at? cat text p).map (shown text) :=
  map_bind_eq_of_rel (Text.offsetAt?_withReturns hreturn hfits) fun _ _ hcut =>
    atOffset?_withReturns hcut

end Hover

/-! ### Completion -/

namespace Completion

/-- **The same is offered at a cursor.** -/
theorem atPosition_withReturns (hreturn : '\r' ∉ text) (hfits : text.Fits p) :
    atPosition cat text.withReturns p = atPosition cat text p := by
  have hcut := Text.offsetAt?_withReturns hreturn hfits
  rw [atPosition, atPosition]
  generalize text.offsetAt? p = b at hcut ⊢
  generalize text.withReturns.offsetAt? p = b' at hcut ⊢
  cases hcut with
  | none => rfl
  | some hcut =>
    dsimp only
    rw [atOffset, atOffset, hcut.lineHead_eq]

end Completion

/-! ### Lines -/

theorem Token.scan_withReturns (hreturn : '\r' ∉ text) :
    Token.scan text.withReturns = Token.scan text := by
  rw [scan, scan, Text.lines_withReturns hreturn]

theorem Highlight.marks_withReturns (hreturn : '\r' ∉ text) :
    marks cat text.withReturns = marks cat text := by
  rw [marks, marks, Token.scan_withReturns hreturn, Text.lines_withReturns hreturn]

namespace Labels

theorem symbols_withReturns (hreturn : '\r' ∉ text) :
    symbols text.withReturns = symbols text := by
  rw [symbols, symbols, Token.scan_withReturns hreturn, Text.lines_withReturns hreturn]

theorem rangesOf_withReturns (hreturn : '\r' ∉ text) (name : Text) (admits : Token → Bool) :
    rangesOf text.withReturns name admits = rangesOf text name admits := by
  rw [rangesOf, rangesOf, Token.scan_withReturns hreturn, Text.lines_withReturns hreturn]

/-- **The same name is under a cursor.** -/
theorem nameAt?_withReturns (hreturn : '\r' ∉ text) (hfits : text.Fits p) :
    nameAt? text.withReturns p = nameAt? text p := by
  refine map_bind_eq_of_rel (Text.offsetAt?_withReturns hreturn hfits) fun b b' hcut => ?_
  have hword := hcut.simpleWord?
  generalize text.simpleWord? b = word at hword ⊢
  generalize text.withReturns.simpleWord? b' = word' at hword ⊢
  cases hword with
  | none => rfl
  | some hword => exact congrArg some hword.1

theorem definitions_withReturns (hreturn : '\r' ∉ text) (hfits : text.Fits p) :
    definitions text.withReturns p = definitions text p := by
  rw [definitions, definitions, nameAt?_withReturns hreturn hfits]
  cases nameAt? text p with
  | none => rfl
  | some name => exact rangesOf_withReturns hreturn name _

theorem references_withReturns (hreturn : '\r' ∉ text) (hfits : text.Fits p)
    (withDefinitions : Bool) :
    references text.withReturns p withDefinitions = references text p withDefinitions := by
  rw [references, references, nameAt?_withReturns hreturn hfits]
  cases nameAt? text p with
  | none => rfl
  | some name => exact rangesOf_withReturns hreturn name _

end Labels

/-- **Line endings do not matter.**  Let a text have no carriage return, and put one before each of
its line feeds.  Its tokens, its highlighting and its outline stay as they are.  So do the answers
for any position that does not lie past the end of its line, or whose line does not exist: what is
shown and for which range, what is offered, where the label under the cursor is defined and where it
is used.  A text of less than 2³¹ bytes stays below the size up to which 32-bit words hold its
positions. -/
theorem line_endings_do_not_matter (cat : Catalogue) (text : Text)
    (hsize : text.byteLength < 0x80000000) (hreturn : '\r' ∉ text) :
    text.withReturns.byteLength < UInt32.size ∧
    Token.scan text.withReturns = Token.scan text ∧
    Highlight.deltas cat text.withReturns = Highlight.deltas cat text ∧
    Labels.symbols text.withReturns = Labels.symbols text ∧
    ∀ p : Position, (∀ line, text.lines[p.line]? = some line → p.character ≤ line.unitLength) →
      (Hover.at? cat text.withReturns p).map (fun h => (h.body, text.withReturns.rangeOf h.bytes)) =
        (Hover.at? cat text p).map (fun h => (h.body, text.rangeOf h.bytes)) ∧
      Completion.atPosition cat text.withReturns p = Completion.atPosition cat text p ∧
      Labels.definitions text.withReturns p = Labels.definitions text p ∧
      ∀ withDefinitions, Labels.references text.withReturns p withDefinitions =
        Labels.references text p withDefinitions := by
  refine ⟨?_, Token.scan_withReturns hreturn, ?_, Labels.symbols_withReturns hreturn, ?_⟩
  · have hcount : text.count '\n' ≤ text.byteLength :=
      List.count_le_length.trans text.length_le_byteLength
    have huint : UInt32.size = 0x100000000 := rfl
    rw [text.byteLength_withReturns]
    omega
  · rw [Highlight.deltas, Highlight.deltas, Highlight.marks_withReturns hreturn]
  · intro p hfits
    exact ⟨Hover.at?_withReturns hreturn hfits, Completion.atPosition_withReturns hreturn hfits,
      Labels.definitions_withReturns hreturn hfits, Labels.references_withReturns hreturn hfits⟩

/-- A command on the second line, after a character of two units, seen from its second letter. -/
theorem clock_shown_with_returns :
    Text.byteLength "é\n😀 wait\n:a".toList < 0x80000000 ∧ '\r' ∉ "é\n😀 wait\n:a".toList ∧
    (∀ line, (Text.lines "é\n😀 wait\n:a".toList)[1]? = some line → 4 ≤ line.unitLength) ∧
    (Hover.at? Highlight.clock "é\r\n😀 wait\r\n:a".toList ⟨1, 4⟩).map
        (fun h => (h.body, Text.rangeOf "é\r\n😀 wait\r\n:a".toList h.bytes)) =
      some ("0001: wait \n\n".toList, ⟨⟨1, 3⟩, ⟨1, 7⟩⟩) := by
  have hsize : Text.byteLength "é\n😀 wait\n:a".toList < 0x80000000 := by decide
  have hreturn : '\r' ∉ "é\n😀 wait\n:a".toList := by decide
  have hfits : ∀ line, (Text.lines "é\n😀 wait\n:a".toList)[1]? = some line →
      4 ≤ line.unitLength := by
    rintro line ⟨⟩
    decide
  have hreturns : Text.withReturns "é\n😀 wait\n:a".toList = "é\r\n😀 wait\r\n:a".toList := by
    decide
  have hsame := line_endings_do_not_matter Highlight.clock _ hsize hreturn
  refine ⟨hsize, hreturn, hfits, ?_⟩
  rw [← hreturns, (hsame.2.2.2.2 ⟨1, 4⟩ hfits).1]
  decide +kernel

end OpcodeLens
