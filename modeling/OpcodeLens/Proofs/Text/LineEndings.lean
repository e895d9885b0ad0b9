import OpcodeLens.Proofs.Text.WordSpan
import OpcodeLens.Proofs.Token.Lines
import Mathlib.Data.List.DropRight

/-!
# Carriage returns before line feeds

A text may end its lines in a line feed alone or in a carriage return and a line feed.  Lines are
the same either way, since a carriage return that ends a line is not part of it.  Byte offsets are
not the same: each line feed before a place moves it by one byte.  Offsets, words and positions are
compared through the part of the text before them.

* `Text.withReturns` : the text with a carriage return before each line feed.
* `Text.lines_withReturns` : **the lines are the same.**
* `Text.SameCut`, `Text.SameWord` : the same place, and the same word, in both texts.
* `Text.offsetAt?_withReturns` : **a position leads to the same place**, if it does not lie past the
  end of its line (`Text.Fits`).
* `Text.SameCut.simpleWord?`, `Text.SameCut.dottedWord?` : **the same words are under the cursor.**
* `Text.SameCut.positionAt_eq`, `Text.SameWord.rangeOf_eq` : and they have the same positions.
-/

namespace OpcodeLens

namespace Text

variable {text before after : Text} {admits : Char → Bool} {c : Char} {o o' : Nat} {p : Position}
  {w w' : WordSpan}

/-- A character, with a carriage return before it if it is a line feed. -/
def withReturn (c : Char) : Text := if c = '\n' then ['\r', '\n'] else [c]

/-- The text with a carriage return before each line feed. -/
def withReturns (text : Text) : Text := text.flatMap withReturn

theorem withReturns_nil : withReturns [] = [] := rfl

theorem withReturns_cons (c : Char) (text : Text) :
    withReturns (c :: text) = withReturn c ++ withReturns text := List.flatMap_cons

theorem withReturns_append (before after : Text) :
    withReturns (before ++ after) = before.withReturns ++ after.withReturns := List.flatMap_append

theorem withReturns_concat (text : Text) (c : Char) :
    withReturns (text ++ [c]) = text.withReturns ++ withReturn c := by
  rw [withReturns_append, withReturns_cons, withReturns_nil, List.append_nil]

theorem withReturn_newline : withReturn '\n' = ['\r', '\n'] := rfl

theorem withReturn_of_ne (h : c ≠ '\n') : withReturn c = [c] := if_neg h

/-- A text on one line stays as it is. -/
theorem withReturns_of_not_mem (h : '\n' ∉ text) : text.withReturns = text := by
  induction text with
  | nil => rfl
  | cons c text ih =>
    obtain ⟨hc, htext⟩ := not_or.1 (mt List.mem_cons.2 h)
    rw [withReturns_cons, withReturn_of_ne (Ne.symm hc), ih htext, List.singleton_append]

/-! ### Measures and ends -/

theorem byteLength_withReturns (text : Text) :
    text.withReturns.byteLength = text.byteLength + text.count '\n' := by
  induction text with
  | nil => rfl
  | cons c text ih =>
    rw [withReturns_cons, byteLength_append, ih, byteLength]
    by_cases hc : c = '\n'
    · have hsize : byteLength (withReturn '\n') = '\n'.utf8Size + 1 := by decide
      rw [hc, hsize, List.count_cons_self]
      omega
    · rw [withReturn_of_ne hc, List.count_cons_of_ne hc, byteLength, byteLength]
      omega

theorem count_newline_withReturns (text : Text) :
    text.withReturns.count '\n' = text.count '\n' := by
  induction text with
  | nil => rfl
  | cons c text ih =>
    rw [withReturns_cons, List.count_append, ih]
    by_cases hc : c = '\n'
    · rw [hc, List.count_cons_self, Nat.add_comm]
      rfl
    · rw [withReturn_of_ne hc, List.count_singleton, List.count_cons_of_ne hc,
        if_neg (by simpa using hc), Nat.zero_add]

theorem getLast?_withReturns (text : Text) : text.withReturns.getLast? = text.getLast? := by
  rcases List.eq_nil_or_concat' text with rfl | ⟨init, c, rfl⟩
  · rfl
  · rw [withReturns_concat, List.getLast?_concat]
    by_cases hc : c = '\n'
    · rw [hc, withReturn_newline]
      exact List.getLast?_append_cons _ _ _
    · rw [withReturn_of_ne hc, List.getLast?_concat]

/-- The part after the last line feed has no carriage return before it. -/
theorem lastLine_withReturns (text : Text) : text.withReturns.lastLine = text.lastLine := by
  induction text using List.reverseRecOn with
  | nil => rfl
  | append_singleton text c ih =>
    rw [withReturns_concat, lastLine_concat]
    by_cases hc : c = '\n'
    · have hsplit : withReturns text ++ ['\r', '\n'] = withReturns text ++ ['\r'] ++ ['\n'] := by
        rw [List.append_assoc, List.singleton_append]
      rw [hc, withReturn_newline, hsplit, lastLine_concat, if_pos rfl, if_pos rfl]
    · rw [withReturn_of_ne hc, lastLine_concat, if_neg hc, if_neg hc, ih]

theorem past_zero_withReturns (text : Text) :
    Position.zero.past text.withReturns = Position.zero.past text := by
  rw [Position.past_zero, Position.past_zero, count_newline_withReturns, lastLine_withReturns]

/-! ### Lines -/

theorem dropLastIf_of_not_mem {mark : Char} (h : mark ∉ text) : dropLastIf mark text = text :=
  if_neg fun hlast => h (List.mem_of_getLast? hlast)

theorem lines_of_not_mem (h : '\n' ∉ text) : text.lines = [dropLastIf '\r' text] := by
  rw [lines, splitLines_of_not_mem h, List.map_singleton]

/-- **Carriage returns at the ends of lines do not change the lines.** -/
theorem lines_withReturns (h : '\r' ∉ text) : text.withReturns.lines = text.lines := by
  -- each line feed takes one line off the text
  induction hlength : text.length using Nat.strong_induction_on generalizing text with
  | _ n ih =>
    by_cases hmem : '\n' ∈ text
    · obtain ⟨first, rest, rfl, hfirst⟩ := List.eq_append_cons_of_mem hmem
      have hreturn : '\r' ∉ first ∧ '\r' ∉ rest := by
        simp only [List.mem_append, List.mem_cons, not_or] at h
        exact ⟨h.1, h.2.2⟩
      have hsplit : withReturns (first ++ '\n' :: rest) =
          (first ++ ['\r']) ++ '\n' :: withReturns rest := by
        rw [withReturns_append, withReturns_of_not_mem hfirst, withReturns_cons, withReturn_newline]
        simp only [List.append_assoc, List.cons_append, List.nil_append]
      have hline : lines (first ++ ['\r']) = lines first := by
        have hnewline : '\n' ∉ first ++ ['\r'] := by simpa using hfirst
        rw [lines_of_not_mem hnewline, lines_of_not_mem hfirst, dropLastIf_of_not_mem hreturn.1,
          dropLastIf, List.getLast?_concat, if_pos rfl, List.dropLast_concat]
      have hrest : lines (withReturns rest) = lines rest := by
        refine ih rest.length ?_ hreturn.2 rfl
        rw [← hlength, List.length_append, List.length_cons]
        omega
      rw [hsplit, lines_append_newline, lines_append_newline, hline, hrest]
    · rw [withReturns_of_not_mem hmem]

/-- The last line of a text. -/
theorem getLast?_lines (text : Text) :
    text.lines.getLast? = some (dropLastIf '\r' text.lastLine) := by
  have hnewline : '\n' ∉ text.lastLine := by
    intro hmem
    rw [lastLine, List.mem_reverse] at hmem
    simpa using List.mem_takeWhile_imp hmem
  rcases eq_append_lastLine text with htext | ⟨before, htext⟩
  · conv_lhs => rw [htext, lines_of_not_mem hnewline]
    rfl
  · conv_lhs => rw [htext, lines_append_newline, lines_of_not_mem hnewline, List.getLast?_concat]

/-- The line that a line feed ends. -/
theorem getElem?_lines_count (before after : Text) :
    (before ++ '\n' :: after).lines[before.count '\n']? =
      some (dropLastIf '\r' before.lastLine) := by
  have hlength := before.length_lines
  rw [lines_append_newline, List.getElem?_append_left (by omega), ← getLast?_lines,
    List.getLast?_eq_getElem?, hlength, Nat.add_sub_cancel_left]

/-! ### Places -/

/-- The offsets are those of the same place, in the text and with carriage returns. -/
def SameCut (text : Text) (o o' : Nat) : Prop :=
  ∃ before after : Text, text = before ++ after ∧ o = before.byteLength ∧
    o' = before.withReturns.byteLength

theorem SameCut.positionAt_eq (h : SameCut text o o') :
    text.withReturns.positionAt o' = text.positionAt o := by
  obtain ⟨before, after, rfl, rfl, rfl⟩ := h
  rw [withReturns_append, positionAt_append, positionAt_append, past_zero_withReturns]

theorem SameCut.lineHead_eq (h : SameCut text o o') :
    text.withReturns.lineHead o' = text.lineHead o := by
  obtain ⟨before, after, rfl, rfl, rfl⟩ := h
  rw [withReturns_append, lineHead_append, lineHead_append, lastLine_withReturns]

/-- The position does not lie past the end of its line, or there is no such line. -/
def Fits (text : Text) (p : Position) : Prop :=
  ∀ line, text.lines[p.line]? = some line → p.character ≤ line.unitLength

/-- The walk to a position stops at the same place with carriage returns, if it need not be stopped
by a line feed. -/
theorem offsetFrom?_withReturns (target : Position) (o o' : Nat) (p : Position) (text : Text)
    (hfits : ∀ before after : Text, text = before ++ '\n' :: after →
      (p.past before).line = target.line → target.character ≤ (p.past before).character) :
    Option.Rel (fun b b' => ∃ before after : Text, text = before ++ after ∧
        b = o + before.byteLength ∧ b' = o' + before.withReturns.byteLength)
      (offsetFrom? target o p text) (offsetFrom? target o' p text.withReturns) := by
  induction text generalizing o o' p with
  | nil =>
    rw [withReturns_nil, offsetFrom?, offsetFrom?]
    by_cases hline : p.line = target.line
    · rw [if_pos hline, if_pos hline]
      exact .some ⟨[], [], rfl, rfl, rfl⟩
    · rw [if_neg hline, if_neg hline]
      exact .none
  | cons c text ih =>
    have hrest := ih (o + c.utf8Size) (o' + byteLength (withReturn c)) (p.after c) <| by
      intro before after htext hline
      exact hfits (c :: before) after (by rw [htext, List.cons_append]) hline
    by_cases hstop : p.line = target.line ∧ (target.character ≤ p.character ∨ c = '\n')
    · -- at a line feed, the position has been reached one place before it
      have hreach : target.character ≤ p.character := by
        rcases hstop.2 with hreach | rfl
        · exact hreach
        · exact hfits [] text rfl hstop.1
      obtain ⟨d, tail, hcons⟩ : ∃ d tail, withReturns (c :: text) = d :: tail := by
        by_cases hc : c = '\n'
        · exact ⟨'\r', '\n' :: withReturns text, by rw [hc]; rfl⟩
        · exact ⟨c, withReturns text, by rw [withReturns_cons, withReturn_of_ne hc]; rfl⟩
      rw [hcons, offsetFrom?, offsetFrom?, if_pos hstop, if_pos ⟨hstop.1, .inl hreach⟩]
      exact .some ⟨[], c :: text, rfl, rfl, rfl⟩
    · have hstep : offsetFrom? target o' p (withReturns (c :: text)) =
          offsetFrom? target (o' + byteLength (withReturn c)) (p.after c) (withReturns text) := by
        rw [withReturns_cons]
        by_cases hc : c = '\n'
        · -- on another line than that of the position, nothing stops the walk
          have hline : p.line ≠ target.line := fun hline => hstop ⟨hline, .inr hc⟩
          subst hc
          have hafter : (p.after '\r').after '\n' = p.after '\n' := rfl
          have hbytes : o' + '\r'.utf8Size + '\n'.utf8Size =
              o' + byteLength (withReturn '\n') := rfl
          rw [withReturn_newline, List.cons_append, List.singleton_append, offsetFrom?, offsetFrom?,
            if_neg (fun h => hline h.1), if_neg (fun h => hline h.1), hafter, hbytes,
            withReturn_newline]
        · rw [withReturn_of_ne hc, List.singleton_append, offsetFrom?, if_neg hstop, byteLength,
            byteLength, Nat.add_zero]
      rw [hstep, offsetFrom?, if_neg hstop]
      generalize offsetFrom? target (o + c.utf8Size) (p.after c) text = b at hrest ⊢
      generalize offsetFrom? target (o' + byteLength (withReturn c)) (p.after c)
        (withReturns text) = b' at hrest ⊢
      cases hrest with
      | none => exact .none
      | some h =>
        obtain ⟨before, after, rfl, rfl, rfl⟩ := h
        refine .some ⟨c :: before, after, rfl, ?_, ?_⟩
        · rw [byteLength, Nat.add_assoc]
        · rw [withReturns_cons, byteLength_append, Nat.add_assoc]

/-- **A position leads to the same place with carriage returns**, unless it lies past the end of its
line. -/
theorem offsetAt?_withReturns (hreturn : '\r' ∉ text) (hfits : text.Fits p) :
    Option.Rel text.SameCut (text.offsetAt? p) (text.withReturns.offsetAt? p) := by
  have hwalk := offsetFrom?_withReturns p 0 0 .zero text <| by
    rintro before after rfl hline
    rw [Position.past_zero] at hline ⊢
    have hlast : '\r' ∉ before.lastLine := fun hmem =>
      hreturn (List.mem_append_left _ (before.lastLine_suffix.subset hmem))
    refine hfits before.lastLine ?_
    rw [← hline, getElem?_lines_count, dropLastIf_of_not_mem hlast]
  simp only [Nat.zero_add] at hwalk
  exact hwalk

/-! ### Words -/

/-- The same word in the text and with carriage returns. -/
def SameWord (text : Text) (w w' : WordSpan) : Prop :=
  w'.text = w.text ∧ '\n' ∉ w.text ∧ ∃ before after : Text, text = before ++ w.text ++ after ∧
    w.start = before.byteLength ∧ w'.start = before.withReturns.byteLength

theorem SameWord.sameCut_start (h : SameWord text w w') : SameCut text w.start w'.start := by
  obtain ⟨-, -, before, after, htext, hstart, hstart'⟩ := h
  exact ⟨before, w.text ++ after, by rw [htext, List.append_assoc], hstart, hstart'⟩

theorem SameWord.sameCut_stop (h : SameWord text w w') :
    SameCut text w.bytes.stop w'.bytes.stop := by
  obtain ⟨hword, hnewline, before, after, htext, hstart, hstart'⟩ := h
  refine ⟨before ++ w.text, after, htext, ?_, ?_⟩
  · rw [WordSpan.bytes, hstart, byteLength_append]
  · rw [WordSpan.bytes, hword, hstart', withReturns_append, withReturns_of_not_mem hnewline,
      byteLength_append]

/-- **A word has the same range with carriage returns.** -/
theorem SameWord.rangeOf_eq (h : SameWord text w w') :
    text.withReturns.rangeOf w'.bytes = text.rangeOf w.bytes := by
  rw [rangeOf, rangeOf, h.sameCut_stop.positionAt_eq]
  congr 1
  exact h.sameCut_start.positionAt_eq

theorem takeWhile_withReturns (hnewline : admits '\n' = false) (hreturn : admits '\r' = false)
    (text : Text) : text.withReturns.takeWhile admits = text.takeWhile admits := by
  induction text with
  | nil => rfl
  | cons c text ih =>
    rw [withReturns_cons]
    by_cases hc : c = '\n'
    · subst hc
      rw [withReturn_newline, List.cons_append, List.takeWhile_cons_of_neg (by simp [hreturn]),
        List.takeWhile_cons_of_neg (by simp [hnewline])]
    · rw [withReturn_of_ne hc, List.singleton_append, List.takeWhile_cons, List.takeWhile_cons, ih]

theorem rtakeWhile_withReturns (hnewline : admits '\n' = false) (text : Text) :
    text.withReturns.rtakeWhile admits = text.rtakeWhile admits := by
  induction text using List.reverseRecOn with
  | nil => rfl
  | append_singleton text c ih =>
    rw [withReturns_concat]
    by_cases hc : c = '\n'
    · subst hc
      have hneg : ¬ admits '\n' = true := by simp [hnewline]
      have hsplit : withReturns text ++ ['\r', '\n'] = withReturns text ++ ['\r'] ++ ['\n'] := by
        rw [List.append_assoc, List.singleton_append]
      rw [withReturn_newline, hsplit, List.rtakeWhile_concat_neg _ _ _ hneg,
        List.rtakeWhile_concat_neg _ _ _ hneg]
    · rw [withReturn_of_ne hc, List.rtakeWhile_concat, List.rtakeWhile_concat, ih]

/-- **The same run is under the cursor with carriage returns.** -/
theorem SameCut.runAt? (h : SameCut text o o') (admits : Char → Bool)
    (hnewline : admits '\n' = false) (hreturn : admits '\r' = false) :
    Option.Rel text.SameWord (runAt? admits text o) (runAt? admits text.withReturns o') := by
  obtain ⟨before, after, rfl, rfl, rfl⟩ := h
  rw [withReturns_append, runAt?_append, runAt?_append, rtakeWhile_withReturns hnewline,
    takeWhile_withReturns hnewline hreturn]
  have hbefore : before.rdropWhile admits ++ before.rtakeWhile admits = before :=
    List.rdropWhile_append_rtakeWhile
  have hleft : '\n' ∉ before.rtakeWhile admits := by
    intro hmem
    simpa [hnewline] using List.mem_rtakeWhile_imp hmem
  have hright : '\n' ∉ after.takeWhile admits := by
    intro hmem
    simpa [hnewline] using List.mem_takeWhile_imp hmem
  split_ifs
  · exact .none
  · refine .some ⟨rfl, ?_, before.rdropWhile admits, after.dropWhile admits, ?_, rfl, ?_⟩
    · exact mt List.mem_append.1 (not_or.2 ⟨hleft, hright⟩)
    · dsimp only
      rw [← List.append_assoc, hbefore, List.append_assoc, List.takeWhile_append_dropWhile]
    · -- what stands between the start of the run and the cursor is on one line
      have hstart : before.withReturns.rdropWhile admits =
          withReturns (before.rdropWhile admits) := by
        have hsplit : before.withReturns.rdropWhile admits ++ before.rtakeWhile admits =
            withReturns (before.rdropWhile admits) ++ before.rtakeWhile admits := by
          rw [← rtakeWhile_withReturns hnewline, List.rdropWhile_append_rtakeWhile,
            rtakeWhile_withReturns hnewline]
          conv_lhs => rw [← hbefore, withReturns_append, withReturns_of_not_mem hleft]
        exact List.append_cancel_right hsplit
      rw [hstart]

theorem dottedHead_append (run : Text) : ∃ rest, run = dottedHead run ++ rest := by
  have howner : run = run.takeWhile isNameChar ++ run.dropWhile isNameChar :=
    List.takeWhile_append_dropWhile.symm
  unfold dottedHead
  dsimp only
  split
  · next rest hrest =>
    split_ifs
    · exact ⟨run.dropWhile isNameChar, howner⟩
    · refine ⟨rest.dropWhile isNameChar, ?_⟩
      conv_lhs => rw [howner, hrest, ← rest.takeWhile_append_dropWhile (p := isNameChar)]
      simp only [List.append_assoc, List.cons_append]
  · exact ⟨run.dropWhile isNameChar, howner⟩

/-- **The same dotted word is under the cursor with carriage returns.** -/
theorem SameCut.dottedWord? (h : SameCut text o o') :
    Option.Rel text.SameWord (text.dottedWord? o) (text.withReturns.dottedWord? o') := by
  have hrun := h.runAt? isDottedChar (by decide) (by decide)
  rw [Text.dottedWord?, Text.dottedWord?]
  generalize Text.runAt? isDottedChar text o = run at hrun ⊢
  generalize Text.runAt? isDottedChar text.withReturns o' = run' at hrun ⊢
  cases hrun with
  | none => exact .none
  | some h =>
    rename_i run run'
    obtain ⟨hword, hnewline, before, after, htext, hstart, hstart'⟩ := h
    dsimp only
    rw [hword]
    split_ifs
    · obtain ⟨rest, hrest⟩ := dottedHead_append run.text
      refine .some ⟨rfl, fun hmem => hnewline ?_, before, rest ++ after, ?_, hstart, hstart'⟩
      · rw [hrest]
        exact List.mem_append_left rest hmem
      · rw [htext]
        conv_lhs => rw [hrest]
        simp only [List.append_assoc]
    · exact .none

/-- **The same plain word is under the cursor with carriage returns.** -/
theorem SameCut.simpleWord? (h : SameCut text o o') :
    Option.Rel text.SameWord (text.simpleWord? o) (text.withReturns.simpleWord? o') := by
  have hrun := h.runAt? isSimpleChar (by decide) (by decide)
  generalize hx : Text.runAt? isSimpleChar text o = run at hrun
  generalize hx' : Text.runAt? isSimpleChar text.withReturns o' = run' at hrun
  cases hrun with
  | none =>
    rw [Text.simpleWord?, Text.simpleWord?, hx, hx']
    exact .none
  | @some run run' hsame =>
    obtain ⟨hword, hnewline, before, after, htext, hstart, hstart'⟩ := hsame
    by_cases hhead : run.text.head? = some '@'
    · -- a leading `@` goes with what stands before the word
      obtain ⟨rest, hrest⟩ := List.head?_eq_some_iff.1 hhead
      have hrun : run = ⟨run.start, '@' :: rest⟩ := by rw [← hrest]
      have hrun' : run' = ⟨run'.start, '@' :: rest⟩ := by rw [← hrest, ← hword]
      rw [hrun] at hx
      rw [hrun'] at hx'
      rw [simpleWord?_of_runAt?_cons hx, simpleWord?_of_runAt?_cons hx']
      rw [hrest] at hnewline htext
      split_ifs
      · exact .none
      · refine .some ⟨rfl, ?_, before ++ ['@'], after, ?_, ?_, ?_⟩
        · exact fun hmem => hnewline (List.mem_cons_of_mem _ hmem)
        · rw [htext]
          simp only [List.append_assoc, List.cons_append, List.nil_append]
        · rw [byteLength_append, hstart]
          rfl
        · rw [withReturns_concat, byteLength_append, hstart']
          rfl
    · rw [simpleWord?_of_runAt? hx hhead, simpleWord?_of_runAt? hx' (by rwa [hword])]
      exact .some ⟨hword, hnewline, before, after, htext, hstart, hstart'⟩

end Text

end OpcodeLens
