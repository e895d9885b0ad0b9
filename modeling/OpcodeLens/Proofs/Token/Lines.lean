import OpcodeLens.Proofs.Token.Place

/-!
# Scanning line by line

A script that is put together from two scripts with a line feed between them has the lines of both,
and its tokens are those of the first script up to its last line, then those of the second one, as
many lines further down.

* `Text.lines_append_newline` : the lines of the whole.
* `Token.shift`, `Token.scanLines_add` : tokens further down.
* `Token.rows` : the tokens of some lines, without an `eof`.
* `Token.scan_append_newline` : the tokens of the whole, by its lines.
* `Token.scan_by_lines` : **the tokens of the whole, by the tokens of the two scripts.**
-/

namespace OpcodeLens

namespace Text

theorem splitLines_append_newline (a b : Text) :
    splitLines (a ++ '\n' :: b) = splitLines a ++ splitLines b := by
  rw [splitLines_eq_splitOn, splitLines_eq_splitOn, splitLines_eq_splitOn,
    List.splitOn_append_cons_self]

theorem lines_append_newline (a b : Text) : lines (a ++ '\n' :: b) = a.lines ++ b.lines := by
  rw [lines, splitLines_append_newline, List.map_append, lines, lines]

theorem lines_ne_nil (text : Text) : text.lines ≠ [] := by
  rw [lines_eq_splitOn]
  exact mt List.map_eq_nil_iff.1 (List.splitOn_ne_nil '\n' text)

theorem length_consLine (c : Char) {lines : List Text} (h : lines ≠ []) :
    (consLine c lines).length = lines.length := by
  rw [consLine_eq_modifyHead c h, List.length_modifyHead]

/-- Each line feed starts a new line. -/
theorem length_splitLines (text : Text) : (splitLines text).length = 1 + text.count '\n' := by
  induction text with
  | nil => rfl
  | cons c rest ih =>
    have hne : splitLines rest ≠ [] := List.ne_nil_of_length_pos (by omega)
    by_cases hc : c = '\n'
    · rw [splitLines, if_pos hc, List.length_cons, ih, hc, List.count_cons_self, Nat.add_assoc]
    · rw [splitLines, if_neg hc, length_consLine c hne, ih, List.count_cons_of_ne hc]

theorem length_lines (text : Text) : text.lines.length = 1 + text.count '\n' := by
  rw [lines, List.length_map, length_splitLines]

end Text

namespace Token

/-! ### Further down -/

/-- The token `n` lines further down. -/
def shift (n : Nat) (t : Token) : Token := { t with line := t.line + n }

theorem scanFrom_add (line n col : Nat) (text : Text) :
    scanFrom (line + n) col text = (scanFrom line col text).map (shift n) := by
  fun_induction scanFrom line col text with
  | case1 col => rw [scanFrom, List.map_nil]
  | case2 col c rest hblank ih => rw [scanFrom, if_pos hblank, ih]
  | case3 col c rest hblank hcomment =>
    rw [scanFrom, if_neg hblank, if_pos hcomment, List.map_nil]
  | case4 col c rest hblank hcomment kind k hmunch ih =>
    rw [scanFrom, if_neg hblank, if_neg hcomment, hmunch]
    dsimp only
    rw [ih, List.map_cons, shift]

theorem scanLine_add (line n : Nat) (text : Text) :
    scanLine (line + n) text = (scanLine line text).map (shift n) := by
  rw [scanLine, scanLine, List.map_append, scanFrom_add, List.map_singleton, shift]

theorem scanLines_add (line n : Nat) (lines : List Text) :
    scanLines (line + n) lines = (scanLines line lines).map (shift n) := by
  induction lines generalizing line with
  | nil => rfl
  | cons text rest ih =>
    rw [scanLines, scanLines, List.map_append, scanLine_add, Nat.add_right_comm, ih]

/-! ### One after the other -/

/-- The tokens of lines that are numbered from `line` on. -/
def rows (line : Nat) : List Text → List Token
  | [] => []
  | text :: rest => scanLine line text ++ rows (line + 1) rest

theorem scanLines_append (line : Nat) (xs ys : List Text) :
    scanLines line (xs ++ ys) = rows line xs ++ scanLines (line + xs.length) ys := by
  induction xs generalizing line with
  | nil => rfl
  | cons text xs ih =>
    rw [List.cons_append, scanLines, ih, rows, List.append_assoc, List.length_cons,
      Nat.add_assoc line 1, Nat.add_comm 1]

theorem exists_rows_eq_concat (line : Nat) {lines : List Text} (h : lines ≠ []) :
    ∃ init mark, rows line lines = init ++ [mark] ∧ mark.kind = .newLine := by
  induction lines generalizing line with
  | nil => exact absurd rfl h
  | cons text rest ih =>
    by_cases hrest : rest = []
    · subst hrest
      exact ⟨_, _, List.append_nil _, rfl⟩
    · obtain ⟨init, mark, hrows, hkind⟩ := ih (line + 1) hrest
      exact ⟨scanLine line text ++ init, mark, by rw [rows, hrows, List.append_assoc], hkind⟩

theorem scan_eq_rows (text : Text) :
    scan text = rows 1 text.lines ++ [⟨.eof, [], 1 + text.lines.length, 0⟩] := by
  have h := scanLines_append 1 text.lines []
  rwa [List.append_nil] at h

/-- **The tokens of two scripts with a line feed between them.** -/
theorem scan_append_newline (a b : Text) :
    scan (a ++ '\n' :: b) = rows 1 a.lines ++ (scan b).map (shift a.lines.length) := by
  rw [scan, Text.lines_append_newline, scanLines_append, scanLines_add, scan]

theorem ne_eof_of_mem_rows {line : Nat} {lines : List Text} {t : Token} (ht : t ∈ rows line lines) :
    t.kind ≠ .eof := by
  induction lines generalizing line with
  | nil => cases ht
  | cons text rest ih =>
    rw [rows, scanLine, List.append_assoc, List.mem_append, List.mem_append,
      List.mem_singleton] at ht
    rcases ht with ht | rfl | ht
    · exact ((scanFrom_lossless line 0 [] text rfl).kind t ht).2.2
    · exact (by decide : TokenKind.newLine ≠ .eof)
    · exact ih ht

/-- Only the end of a line has a line feed in it. -/
theorem newline_not_mem_of_mem_scan {text : Text} {t : Token} (ht : t ∈ scan text)
    (hkind : t.kind ≠ .newLine) : '\n' ∉ t.text := by
  by_cases heof : t.kind = .eof
  · rw [scan_eq_rows, List.mem_append, List.mem_singleton] at ht
    rcases ht with ht | rfl
    · exact absurd heof (ne_eof_of_mem_rows ht)
    · exact List.not_mem_nil
  · obtain ⟨before, head, after, h⟩ := exists_around ht ⟨hkind, heof⟩
    exact h.single.2

/-- **Scanning is done line by line.**  A script ends in a single `eof`, on the line after its last
one.  Two scripts with a line feed between them have the tokens of the first one, less that `eof`,
and then those of the second one, as many lines further down as the first one has.  So whatever is
open at the end of a line ends there: no token but the end of a line has a line feed in it. -/
theorem scan_by_lines (a b : Text) :
    a.lines.length = 1 + a.count '\n' ∧
    (scan a).getLast? = some ⟨.eof, [], 2 + a.count '\n', 0⟩ ∧
    (∀ t ∈ (scan a).dropLast, t.kind ≠ .eof) ∧
    scan (a ++ '\n' :: b) = (scan a).dropLast ++ (scan b).map (shift (1 + a.count '\n')) ∧
    ∀ t ∈ scan (a ++ '\n' :: b), t.kind ≠ .newLine → '\n' ∉ t.text := by
  have hlines := a.length_lines
  have hrows : (scan a).dropLast = rows 1 a.lines := by
    rw [scan_eq_rows, List.dropLast_concat]
  refine ⟨hlines, ?_, ?_, ?_, fun t ht hkind => newline_not_mem_of_mem_scan ht hkind⟩
  · rw [scan_eq_rows, List.getLast?_concat, hlines, ← Nat.add_assoc]
  · rw [hrows]
    exact fun t ht => ne_eof_of_mem_rows ht
  · rw [hrows, scan_append_newline, hlines]

/-- A string and a comment that are open where a line ends. -/
example :
    scan "'a\\\n// b\n@c".toList =
      (scan "'a\\".toList).dropLast ++ (scan "// b\n@c".toList).map (shift 1) := by
  decide +kernel

end Token

end OpcodeLens
