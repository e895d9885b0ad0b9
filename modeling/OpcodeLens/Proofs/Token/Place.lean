import OpcodeLens.Proofs.Text.Position
import OpcodeLens.Proofs.Token.Lossless

/-!
# Where tokens stand

A token knows its place by line and character column.  Here that place is tied to the bytes of the
whole script: a script is the lines before the token's line, the part of the line before the token,
the token, and the rest.  Both ways to the token's range, over columns and over byte offsets, are
read off that.

* `Text.exists_eq_linesBefore_append` : a script around one of its lines.
* `Token.exists_line_of_mem_scan`, `Token.exists_split_of_mem_scanFrom` : the line of a token, and
  that line around the token.
* `Token.Around`, `Token.exists_around` : the script around a token.
* `Token.place_lt_of_mem_scan` : the numbers of a token's place fit in 32-bit words.
* `Token.scan_pairwise_precedes` : tokens stand one after the other.
* `Token.range_eq_rangeOf_bytes` : **the range of a token is the range of its bytes.**
-/

namespace OpcodeLens

namespace Text

variable {text line : Text} {n : Nat}

/-! ### Lines in their text -/

/-- The lines before the line numbered `n` from zero, with their line feeds. -/
def linesBefore (text : Text) (n : Nat) : Text := (text.splitLines.take n).flatMap (· ++ ['\n'])

/-- The byte offset at which the line numbered `n` from zero starts. -/
def lineStart (text : Text) (n : Nat) : Nat := (text.linesBefore n).byteLength

theorem linesBefore_append_succ (h : '\n' ∉ line) (rest : Text) (n : Nat) :
    linesBefore (line ++ '\n' :: rest) (n + 1) = line ++ '\n' :: rest.linesBefore n := by
  rw [linesBefore, splitLines_append h, List.take_succ_cons, List.flatMap_cons, ← linesBefore,
    List.append_assoc, List.singleton_append]

/-- A text around one of the pieces between its line feeds, and the position at which that piece
starts. -/
theorem exists_eq_of_splitLines (h : text.splitLines[n]? = some line) :
    ∃ after, text = text.linesBefore n ++ line ++ after ∧ '\n' ∉ line ∧
      (∀ c ∈ after.head?, c = '\n') ∧
      ∀ k, Position.past ⟨k, 0⟩ (text.linesBefore n) = ⟨k + n, 0⟩ := by
  -- each line feed takes one line off the text
  induction n generalizing text with
  | zero =>
    have hbefore : text.linesBefore 0 = [] := rfl
    rw [hbefore]
    by_cases hmem : '\n' ∈ text
    · obtain ⟨first, rest, rfl, hfirst⟩ := List.eq_append_cons_of_mem hmem
      rw [splitLines_append hfirst] at h
      cases h
      exact ⟨'\n' :: rest, rfl, hfirst, by simp, fun k => rfl⟩
    · rw [splitLines_of_not_mem hmem] at h
      cases h
      exact ⟨[], (List.append_nil _).symm, hmem, by simp, fun k => rfl⟩
  | succ n ih =>
    by_cases hmem : '\n' ∈ text
    · obtain ⟨first, rest, rfl, hfirst⟩ := List.eq_append_cons_of_mem hmem
      rw [splitLines_append hfirst, List.getElem?_cons_succ] at h
      obtain ⟨after, hrest, hline, hafter, hpast⟩ := ih h
      refine ⟨after, ?_, hline, hafter, fun k => ?_⟩
      · rw [linesBefore_append_succ hfirst]
        conv_lhs => rw [hrest]
        simp only [List.append_assoc, List.cons_append]
      · rw [linesBefore_append_succ hfirst, Position.past_append, Position.past_of_not_mem hfirst,
          Position.past_cons, Position.after, if_pos rfl, hpast]
        dsimp only
        rw [Nat.succ_add_eq_add_succ]
    · rw [splitLines_of_not_mem hmem] at h
      cases h

theorem exists_dropLastIf_append (mark : Char) (text : Text) :
    ∃ last, dropLastIf mark text ++ last = text ∧ ∀ c ∈ last, c = mark := by
  unfold dropLastIf
  split_ifs with h
  · exact ⟨[mark], List.dropLast_append_getLast? mark h, by simp⟩
  · exact ⟨[], List.append_nil text, by simp⟩

/-- **A text around one of its lines.** -/
theorem exists_eq_linesBefore_append (h : text.lines[n]? = some line) :
    ∃ after, text = text.linesBefore n ++ line ++ after ∧ '\n' ∉ line ∧
      (∀ c ∈ after.head?, c = '\r' ∨ c = '\n') ∧
      Position.zero.past (text.linesBefore n) = ⟨n, 0⟩ := by
  rw [lines, List.getElem?_map] at h
  obtain ⟨raw, hraw, rfl⟩ := Option.map_eq_some_iff.1 h
  obtain ⟨after, htext, hmem, hafter, hpast⟩ := exists_eq_of_splitLines hraw
  -- a carriage return that ends the line goes with what follows
  obtain ⟨last, hlast, hreturn⟩ := exists_dropLastIf_append '\r' raw
  rw [← hlast] at htext hmem
  refine ⟨last ++ after, ?_, fun hc => hmem (List.mem_append_left last hc), ?_, ?_⟩
  · conv_lhs => rw [htext]
    simp only [List.append_assoc]
  · cases last with
    | nil => exact fun c hc => .inr (hafter c hc)
    | cons d last =>
      rintro c ⟨⟩
      exact .inl (hreturn d List.mem_cons_self)
  · rw [Position.zero, hpast, Nat.zero_add]

/-- Neither the number of a line, from zero, nor its length is larger than the text. -/
theorem line_le_byteLength (h : text.lines[n]? = some line) :
    n ≤ text.byteLength ∧ line.length ≤ text.byteLength := by
  obtain ⟨after, htext, -, -, hpast⟩ := exists_eq_linesBefore_append h
  have hlines := (Position.past_zero_le (text.linesBefore n)).1
  have hline := line.length_le_byteLength
  have hsize := congrArg byteLength htext
  rw [hpast] at hlines
  dsimp only at hlines
  simp only [byteLength_append] at hsize
  omega

end Text

namespace Token

variable {text line : Text} {t : Token}

/-! ### Tokens in their line -/

/-- **A token that is no end stands on one of the lines.** -/
theorem exists_line_of_mem_scan (ht : t ∈ scan text) (hkind : IsPiece t.kind) :
    1 ≤ t.line ∧ ∃ line, text.lines[t.line - 1]? = some line ∧ t ∈ scanFrom t.line 0 line := by
  rw [scan, scanLines_eq, List.mem_append, List.mem_singleton, List.mem_flatten] at ht
  rcases ht with ⟨row, hrow, ht⟩ | rfl
  · obtain ⟨k, hk, rfl⟩ := List.mem_mapIdx.1 hrow
    rw [scanLine, List.mem_append, List.mem_singleton] at ht
    rcases ht with ht | rfl
    · have hline : t.line = 1 + k := ((scanFrom_lossless (1 + k) 0 [] _ rfl).kind t ht).1
      rw [hline, Nat.add_sub_cancel_left]
      exact ⟨Nat.le_add_right 1 k, _, List.getElem?_eq_getElem hk, ht⟩
    · exact absurd rfl hkind.1
  · exact absurd rfl hkind.2

/-- **A line around one of its tokens.** -/
theorem exists_split_of_mem_scanFrom {k : Nat} (ht : t ∈ scanFrom k 0 line) :
    t.text ≠ [] ∧ ∃ head tail, line = head ++ t.text ++ tail ∧ head.length = t.col := by
  obtain ⟨hne, hpiece⟩ := (scanFrom_lossless k 0 [] line rfl).piece t ht
  rw [List.nil_append] at hpiece
  refine ⟨hne, line.take t.col, (line.drop t.col).drop t.text.length, ?_, ?_⟩
  · rw [List.append_assoc]
    nth_rewrite 1 [hpiece]
    rw [List.take_append_drop, List.take_append_drop]
  · rw [List.length_take, Nat.min_eq_left]
    -- a column past the end of the line would leave nothing for the token
    by_contra hcol
    rw [List.drop_eq_nil_of_le (by omega), List.take_nil] at hpiece
    exact hne hpiece

/-! ### Tokens in order -/

/-- The token `s` ends before `t` starts. -/
def Precedes (s t : Token) : Prop := s.line < t.line ∨ s.line = t.line ∧ s.stop ≤ t.col

theorem scanLine_line {k : Nat} (ht : t ∈ scanLine k line) : t.line = k := by
  rw [scanLine, List.mem_append, List.mem_singleton] at ht
  rcases ht with ht | rfl
  · exact ((scanFrom_lossless k 0 [] line rfl).kind t ht).1
  · rfl

theorem le_line_of_mem_scanLines {k : Nat} {lines : List Text} (ht : t ∈ scanLines k lines) :
    k ≤ t.line := by
  induction lines generalizing k with
  | nil =>
    rw [scanLines, List.mem_singleton] at ht
    subst ht
    exact Nat.le_refl k
  | cons line lines ih =>
    rw [scanLines, List.mem_append] at ht
    rcases ht with ht | ht
    · exact Nat.le_of_eq (scanLine_line ht).symm
    · exact Nat.le_of_succ_le (ih ht)

theorem scanLine_pairwise_precedes (k : Nat) (line : Text) :
    (scanLine k line).Pairwise fun s t => IsPiece s.kind → IsPiece t.kind → s.Precedes t := by
  have hlossless := scanFrom_lossless k 0 [] line rfl
  refine List.pairwise_append.2 ⟨?_, List.pairwise_singleton _ _, ?_⟩
  · refine hlossless.ordered.imp_of_mem fun {s t} hs ht hle _ _ => .inr ⟨?_, hle⟩
    rw [(hlossless.kind s hs).1, (hlossless.kind t ht).1]
  · intro s _ t ht _ hkind
    rw [List.mem_singleton.1 ht] at hkind
    exact absurd rfl hkind.1

theorem scanLines_pairwise_precedes (k : Nat) (lines : List Text) :
    (scanLines k lines).Pairwise fun s t => IsPiece s.kind → IsPiece t.kind → s.Precedes t := by
  induction lines generalizing k with
  | nil => exact List.pairwise_singleton _ _
  | cons line lines ih =>
    refine List.pairwise_append.2 ⟨scanLine_pairwise_precedes k line, ih (k + 1), ?_⟩
    intro s hs t ht _ _
    have hline : s.line = k := scanLine_line hs
    have hlater : k + 1 ≤ t.line := le_line_of_mem_scanLines ht
    exact .inl (by omega)

/-- **Lines and columns fit in 32-bit words**, those of the ends of lines and of the script
included.  The script ends on a line of its own, so that its last token may stand two lines further
down than the script has bytes. -/
theorem place_lt_of_mem_scan (hsize : text.byteLength + 2 < UInt32.size) (ht : t ∈ scan text) :
    t.line < UInt32.size ∧ t.col < UInt32.size := by
  have hlines : text.lines.length ≤ text.byteLength + 1 := by
    rcases Nat.eq_zero_or_pos text.lines.length with hzero | hpos
    · omega
    · have hlast := List.getElem?_eq_getElem (Nat.sub_one_lt hpos.ne')
      have := (Text.line_le_byteLength hlast).1
      omega
  rw [scan, scanLines_eq, List.mem_append, List.mem_singleton, List.mem_flatten] at ht
  rcases ht with ⟨row, hrow, ht⟩ | rfl
  · obtain ⟨k, hk, rfl⟩ := List.mem_mapIdx.1 hrow
    have hlength := (Text.line_le_byteLength (List.getElem?_eq_getElem hk)).2
    have hline : t.line = 1 + k := scanLine_line ht
    have hcol : t.col ≤ text.lines[k].length := by
      rw [scanLine, List.mem_append, List.mem_singleton] at ht
      rcases ht with ht | rfl
      · obtain ⟨-, head, tail, hsplit, hhead⟩ := exists_split_of_mem_scanFrom ht
        rw [hsplit, ← hhead, List.append_assoc, List.length_append]
        exact Nat.le_add_right _ _
      · exact Nat.le_refl _
    omega
  · dsimp only
    omega

/-- **Tokens stand one after the other.** -/
theorem scan_pairwise_precedes (text : Text) :
    (scan text).Pairwise fun s t => IsPiece s.kind → IsPiece t.kind → s.Precedes t :=
  scanLines_pairwise_precedes 1 text.lines

/-! ### Bytes and ranges -/

/-- The byte offset of a token's first character: where its line starts, and the bytes of the
characters before its column. -/
def offset (text : Text) (t : Token) : Nat :=
  text.lineStart (t.line - 1) + Text.byteLength ((text.lines[t.line - 1]?.getD []).take t.col)

/-- The bytes of a token. -/
def bytes (text : Text) (t : Token) : ByteRange :=
  ⟨t.offset text, t.offset text + t.text.byteLength⟩

/-- A script around one of its tokens. -/
structure Around (text : Text) (t : Token) (before head after : Text) : Prop where
  /-- The token has a text, and a line. -/
  proper : t.text ≠ [] ∧ 1 ≤ t.line
  /-- The script is made of the lines before the token, the head of its line, the token and the
  rest. -/
  eq : text = before ++ head ++ t.text ++ after
  /-- The lines before the token end where its line starts. -/
  past : Position.zero.past before = ⟨t.line - 1, 0⟩
  /-- There is no line feed in the token's line. -/
  single : '\n' ∉ head ∧ '\n' ∉ t.text
  /-- The token stands on a line. -/
  line : ∃ tail, text.lines[t.line - 1]? = some (head ++ t.text ++ tail)
  /-- The column counts the characters of the head. -/
  col : head.length = t.col
  /-- The offset counts the bytes before the token. -/
  offset : t.offset text = Text.byteLength (before ++ head)

/-- A script around a token, from the line of the token. -/
theorem exists_around_of_line {head tail : Text} (hproper : t.text ≠ [] ∧ 1 ≤ t.line)
    (hline : text.lines[t.line - 1]? = some (head ++ t.text ++ tail)) (hcol : head.length = t.col) :
    ∃ before after, Around text t before head (tail ++ after) ∧
      ∀ c ∈ after.head?, c = '\r' ∨ c = '\n' := by
  obtain ⟨after, htext, hsingle, hafter, hpast⟩ := Text.exists_eq_linesBefore_append hline
  refine ⟨text.linesBefore (t.line - 1), after, ⟨hproper, ?_, hpast, ?_, ⟨tail, hline⟩, hcol, ?_⟩,
    hafter⟩
  · conv_lhs => rw [htext]
    simp only [List.append_assoc]
  · simp only [List.mem_append, not_or] at hsingle
    exact hsingle.1
  · rw [offset, hline, Option.getD_some, ← hcol, List.append_assoc, List.take_left,
      Text.byteLength_append, Text.lineStart]

theorem exists_around (ht : t ∈ scan text) (hkind : IsPiece t.kind) :
    ∃ before head after, Around text t before head after := by
  obtain ⟨hpos, line, hline, hmem⟩ := exists_line_of_mem_scan ht hkind
  obtain ⟨hne, head, tail, rfl, hcol⟩ := exists_split_of_mem_scanFrom hmem
  obtain ⟨before, after, h, -⟩ := exists_around_of_line ⟨hne, hpos⟩ hline hcol
  exact ⟨before, head, tail ++ after, h⟩

namespace Around

variable {before head after : Text}

theorem range_eq (h : Around text t before head after) :
    t.range text.lines =
      ⟨⟨t.line - 1, head.unitLength⟩, ⟨t.line - 1, head.unitLength + t.text.unitLength⟩⟩ := by
  obtain ⟨tail, hline⟩ := h.line
  have hstart : unitColumn text.lines (t.line - 1) t.col = head.unitLength := by
    rw [unitColumn, hline, ← h.col, List.append_assoc]
    dsimp only
    rw [List.take_left]
  rw [range, hstart]

theorem slice?_bytes (h : Around text t before head after) :
    text.slice? (t.bytes text) = some t.text := by
  rw [bytes, h.offset, h.eq]
  exact Text.slice?_append (before ++ head) t.text after

/-- **Columns and byte offsets give the same range.** -/
theorem range_eq_rangeOf (h : Around text t before head after) :
    t.range text.lines = text.rangeOf (t.bytes text) := by
  have hstart : text.positionAt (Text.byteLength (before ++ head)) =
      ⟨t.line - 1, head.unitLength⟩ := by
    rw [h.eq, List.append_assoc, Text.positionAt_append, Position.past_append, h.past,
      Position.past_of_not_mem h.single.1, Nat.zero_add]
  have hstop : text.positionAt (Text.byteLength (before ++ head ++ t.text)) =
      ⟨t.line - 1, head.unitLength + t.text.unitLength⟩ := by
    rw [h.eq, Text.positionAt_append, Position.past_append, Position.past_append, h.past,
      Position.past_of_not_mem h.single.1, Position.past_of_not_mem h.single.2, Nat.zero_add]
  rw [h.range_eq, Text.rangeOf, bytes, h.offset, hstart, ← Text.byteLength_append, hstop]

/-- Tokens that stand one after the other also do so by position. -/
theorem range_stop_le {s : Token} {before' head' after' : Text}
    (hs : Around text s before' head' after') (ht : Around text t before head after)
    (h : s.Precedes t) : (s.range text.lines).stop ≤ (t.range text.lines).start := by
  rw [hs.range_eq, ht.range_eq, Position.le_iff]
  rcases h with hline | ⟨hline, hstop⟩
  · have := hs.proper.2
    exact .inl (by dsimp only; omega)
  · -- on one line, the earlier token and what stands before it are part of the later one's head
    obtain ⟨tail', hline'⟩ := hs.line
    obtain ⟨tail, htail⟩ := ht.line
    rw [hline, htail, Option.some.injEq] at hline'
    rw [stop, ← hs.col, ← ht.col, ← List.length_append] at hstop
    obtain ⟨gap, hgap⟩ : head' ++ s.text <+: head := by
      refine List.prefix_of_prefix_length_le ⟨tail', hline'.symm⟩ ⟨t.text ++ tail, ?_⟩ hstop
      rw [List.append_assoc]
    refine .inr ⟨by rw [hline], ?_⟩
    dsimp only
    rw [← hgap, Text.unitLength_append, Text.unitLength_append]
    exact Nat.le_add_right _ _

/-- No number of a token's place is larger than the script. -/
theorem place_le (h : Around text t before head after) :
    t.line ≤ text.byteLength ∧ t.col ≤ text.byteLength ∧
      (t.range text.lines).stop.line ≤ text.byteLength ∧
      (t.range text.lines).stop.character ≤ text.byteLength := by
  have hstop := text.positionAt_le (t.bytes text).stop
  have hlines := (Position.past_zero_le before).1
  have hhead := head.length_le_byteLength
  have hsize := congrArg Text.byteLength h.eq
  have htoken := (List.length_pos_iff.2 h.proper.1).trans_le t.text.length_le_byteLength
  rw [h.past] at hlines
  dsimp only at hlines
  rw [h.col] at hhead
  simp only [Text.byteLength_append] at hsize
  rw [h.range_eq_rangeOf]
  exact ⟨by omega, by omega, hstop⟩

end Around

/-- **The range of a token is the range of its bytes.**  A token that is not the end of a line or of
the script stands on one of the lines, and the script has the token's text at the byte offset that
its line and column name.  The range that is found by columns on the token's line is the one that is
found by walking over the script to the two ends of these bytes.  In a script whose positions are
written with 32-bit words, all these numbers fit in them. -/
theorem range_eq_rangeOf_bytes (text : Text) (hsize : text.byteLength < UInt32.size) (t : Token)
    (ht : t ∈ scan text) (hnewLine : t.kind ≠ .newLine) (heof : t.kind ≠ .eof) :
    (∃ line, text.lines[t.line - 1]? = some line ∧
      t.offset text = text.lineStart (t.line - 1) + Text.byteLength (line.take t.col)) ∧
    text.slice? ⟨t.offset text, t.offset text + t.text.byteLength⟩ = some t.text ∧
    t.range text.lines = text.rangeOf ⟨t.offset text, t.offset text + t.text.byteLength⟩ ∧
    1 ≤ t.line ∧ t.line < UInt32.size ∧ t.col < UInt32.size ∧
    (t.range text.lines).stop.line < UInt32.size ∧
    (t.range text.lines).stop.character < UInt32.size := by
  obtain ⟨before, head, after, h⟩ := exists_around ht ⟨hnewLine, heof⟩
  obtain ⟨hline, hcol, hstop⟩ := h.place_le
  obtain ⟨tail, htail⟩ := h.line
  refine ⟨⟨_, htail, by rw [offset, htail, Option.getD_some]⟩, h.slice?_bytes, h.range_eq_rangeOf,
    h.proper.2, ?_⟩
  omega

/-- On the second line, after a character of two units, columns, units and bytes all differ. -/
theorem label_range_after_surrogates :
    Text.byteLength "é\r\n\"😀\" @end".toList < UInt32.size ∧
    ⟨.labelJump, "@end".toList, 2, 4⟩ ∈ scan "é\r\n\"😀\" @end".toList ∧
    range (Text.lines "é\r\n\"😀\" @end".toList) ⟨.labelJump, "@end".toList, 2, 4⟩ =
      Text.rangeOf "é\r\n\"😀\" @end".toList ⟨11, 15⟩ := by
  have hsize : Text.byteLength "é\r\n\"😀\" @end".toList < UInt32.size := by decide
  have hmem : ⟨.labelJump, "@end".toList, 2, 4⟩ ∈ scan "é\r\n\"😀\" @end".toList := by
    decide +kernel
  have h := range_eq_rangeOf_bytes _ hsize _ hmem (by decide) (by decide)
  exact ⟨hsize, hmem, h.2.2.1⟩

end Token

end OpcodeLens
