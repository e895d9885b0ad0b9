import OpcodeLens.Proofs.Text.Basic
import OpcodeLens.Token.Scanner

/-!
# Scanning loses nothing

A scanned line can be put together again: each token is the piece of the line that starts at its
column, and what lies outside the tokens is blank or a comment at the end.

* `Token.munch_le` : a token never claims more characters than there are.
* `Token.Lossless` : what the tokens from some column on say about the text of their line.  It holds
  of no token on a text that is blank or a comment, and it is kept when a blank or a token is put in
  front (`Lossless.blank`, `Lossless.cons`).
* `Token.scanFrom_lossless` : the tokens that are scanned from a column on.
* `Token.scan_lossless` : **the tokens of a script, line by line.**
-/

namespace OpcodeLens

namespace Token

/-! ### Extents -/

theorem runLength_le (admits : Char → Bool) (text : Text) :
    runLength admits text ≤ text.length :=
  (List.takeWhile_prefix admits).length_le

theorem quotedLength_le (quote : Char) (text : Text) : quotedLength quote text ≤ text.length := by
  fun_induction quotedLength quote text with
  | case1 => exact Nat.le_refl 0
  | case2 => exact Nat.le_refl 1
  | case3 d rest ih =>
    simp only [List.length_cons]
    omega
  | case4 => simp
  | case5 c d rest _ _ ih =>
    simp only [List.length_cons] at ih ⊢
    omega

theorem munchNumber_le (rest : Text) : (munchNumber rest).2 ≤ rest.length := by
  have hdigits := runLength_le Char.isDigit rest
  unfold munchNumber
  dsimp only
  split
  · exact hdigits
  · next c tail htail =>
    -- there is a character after the digits
    have hlength := congrArg List.length htail
    simp only [List.length_drop, List.length_cons] at hlength
    have htail := runLength_le Char.isDigit tail
    split
    · dsimp only
      omega
    · split_ifs
      · dsimp only
        omega
      · exact hdigits

/-- **A token never claims more characters than there are.** -/
theorem munch_le (c : Char) (rest : Text) : (munch c rest).2 ≤ rest.length := by
  unfold munch
  split
  · next kind hkind =>
    -- an operator has seen its second character
    cases rest with
    | nil => cases hkind
    | cons d rest => simp
  · split
    · exact Nat.zero_le _
    · split
      · exact runLength_le _ _
      · split_ifs
        · exact runLength_le _ _
        · exact munchNumber_le rest
        · exact quotedLength_le c rest
        · exact Nat.zero_le _

/-! ### Kinds -/

/-- Tokens of this kind stand for characters of their line. -/
def IsPiece (kind : TokenKind) : Prop := kind ≠ .newLine ∧ kind ≠ .eof

instance : DecidablePred IsPiece := fun kind =>
  inferInstanceAs (Decidable (kind ≠ .newLine ∧ kind ≠ .eof))

theorem isPiece_of_operatorKind? {c d : Char} {kind : TokenKind}
    (h : operatorKind? c d = some kind) : IsPiece kind := by
  unfold operatorKind? at h
  split at h <;> cases h <;> decide

theorem isPiece_of_singleKind? {c : Char} {kind : TokenKind} (h : singleKind? c = some kind) :
    IsPiece kind := by
  unfold singleKind? at h
  split at h <;> cases h <;> decide

theorem isPiece_of_tagKind? {c : Char} {kind : TokenKind} (h : tagKind? c = some kind) :
    IsPiece kind := by
  unfold tagKind? at h
  split at h <;> cases h <;> decide

theorem isPiece_of_markKind? {c : Char} {kind : TokenKind} (h : markKind? c = some kind) :
    IsPiece kind := by
  unfold markKind? at h
  split at h <;> cases h <;> decide

theorem munchNumber_isPiece (rest : Text) : IsPiece (munchNumber rest).1 := by
  unfold munchNumber
  dsimp only
  split
  · exact (by decide : IsPiece .number)
  · split
    · next kind hkind => exact isPiece_of_markKind? hkind
    · split_ifs
      · exact (by decide : IsPiece .float)
      · exact (by decide : IsPiece .number)

theorem munch_isPiece (c : Char) (rest : Text) : IsPiece (munch c rest).1 := by
  unfold munch
  split
  · next kind hkind =>
    obtain ⟨d, -, hd⟩ := Option.bind_eq_some_iff.1 hkind
    exact isPiece_of_operatorKind? hd
  · split
    · next kind hkind => exact isPiece_of_singleKind? hkind
    · split
      · next kind hkind => exact isPiece_of_tagKind? hkind
      · split_ifs
        · exact (by decide : IsPiece .identifier)
        · exact munchNumber_isPiece rest
        · exact (by decide : IsPiece .string)
        · exact (by decide : IsPiece .unknown)

/-! ### Lines -/

/-- The column after a token. -/
def stop (t : Token) : Nat := t.col + t.text.length

/-- The column after the last token, or the given one if there is none. -/
def stopFrom (col : Nat) : List Token → Nat
  | [] => col
  | t :: rest => stopFrom t.stop rest

/-- Blanks, and possibly a comment after them. -/
def IsTrailing (text : Text) : Prop :=
  ∃ blanks rest : Text, text = blanks ++ rest ∧ (∀ c ∈ blanks, Text.isBlank c = true) ∧
    (rest = [] ∨ ∃ comment, rest = '/' :: '/' :: comment)

theorem IsTrailing.cons {c : Char} {text : Text} (hc : Text.isBlank c = true)
    (h : IsTrailing text) : IsTrailing (c :: text) := by
  obtain ⟨blanks, rest, rfl, hblanks, hrest⟩ := h
  exact ⟨c :: blanks, rest, rfl, by simpa [hc] using hblanks, hrest⟩

/-- From column `col` on, the tokens lose nothing of the text of line `line` but blanks and a
comment at its end. -/
structure Lossless (line : Nat) (text : Text) (col : Nat) (tokens : List Token) : Prop where
  /-- Each token stands for characters of the line. -/
  kind : ∀ t ∈ tokens, t.line = line ∧ t.kind ≠ .newLine ∧ t.kind ≠ .eof
  /-- Each token is the piece of the line from its column on, and no piece is empty. -/
  piece : ∀ t ∈ tokens, t.text ≠ [] ∧ t.text = (text.drop t.col).take t.text.length
  /-- No token starts before the end of an earlier one. -/
  ordered : tokens.Pairwise fun s t => s.stop ≤ t.col
  /-- Between a token and the one before it there are only blanks. -/
  gap : ∀ earlier t later, tokens = earlier ++ t :: later → stopFrom col earlier ≤ t.col ∧
    ∀ i c, stopFrom col earlier ≤ i → i < t.col → text[i]? = some c → Text.isBlank c = true
  /-- After the last token there are only blanks and a comment. -/
  rest : IsTrailing (text.drop (stopFrom col tokens))

namespace Lossless

variable {line col : Nat} {text : Text} {tokens : List Token} {t : Token}

theorem nil (h : IsTrailing (text.drop col)) : Lossless line text col [] where
  kind := by simp
  piece := by simp
  ordered := .nil
  gap := by simp
  rest := h

theorem col_le (h : Lossless line text col tokens) (ht : t ∈ tokens) : col ≤ t.col := by
  cases tokens with
  | nil => cases ht
  | cons u tokens =>
    have hu : col ≤ u.col := (h.gap [] u tokens rfl).1
    rcases List.mem_cons.1 ht with rfl | ht
    · exact hu
    · have hstop : u.stop ≤ t.col := List.rel_of_pairwise_cons h.ordered ht
      unfold stop at hstop
      omega

/-- A blank in front belongs to the first gap, or to what follows the tokens if there is none. -/
theorem blank {c : Char} (hcol : text[col]? = some c) (hc : Text.isBlank c = true)
    (h : Lossless line text (col + 1) tokens) : Lossless line text col tokens where
  kind := h.kind
  piece := h.piece
  ordered := h.ordered
  gap := by
    intro earlier t later heq
    obtain ⟨hle, hblank⟩ := h.gap earlier t later heq
    cases earlier with
    | nil =>
      refine ⟨Nat.le_of_succ_le hle, fun i d hi hlt hd => ?_⟩
      rcases Nat.eq_or_lt_of_le hi with rfl | hi
      · rw [stopFrom, hcol] at hd
        cases hd
        exact hc
      · exact hblank i d hi hlt hd
    | cons u earlier => exact ⟨hle, hblank⟩
  rest := by
    cases tokens with
    | nil =>
      obtain ⟨hlt, hget⟩ := List.getElem?_eq_some_iff.1 hcol
      rw [stopFrom, List.drop_eq_getElem_cons hlt, hget]
      exact h.rest.cons hc
    | cons u tokens => exact h.rest

/-- A token at the column itself is put in front of those that start after it. -/
theorem cons (hcol : t.col = col) (hkind : t.line = line ∧ IsPiece t.kind) (hne : t.text ≠ [])
    (hpiece : t.text = (text.drop col).take t.text.length)
    (h : Lossless line text t.stop tokens) : Lossless line text col (t :: tokens) where
  kind := by
    intro u hu
    rcases List.mem_cons.1 hu with rfl | hu
    · exact hkind
    · exact h.kind u hu
  piece := by
    intro u hu
    rcases List.mem_cons.1 hu with rfl | hu
    · exact ⟨hne, by rw [hcol]; exact hpiece⟩
    · exact h.piece u hu
  ordered := List.pairwise_cons.2 ⟨fun u hu => h.col_le hu, h.ordered⟩
  gap := by
    intro earlier u later heq
    cases earlier with
    | nil =>
      obtain ⟨rfl, rfl⟩ := List.cons_eq_cons.1 heq
      refine ⟨Nat.le_of_eq hcol.symm, fun i c hi hlt _ => ?_⟩
      rw [stopFrom] at hi
      omega
    | cons v earlier =>
      obtain ⟨rfl, rfl⟩ := List.cons_eq_cons.1 heq
      exact h.gap earlier u later rfl
  rest := h.rest

end Lossless

/-- **The tokens that are scanned from a column on.** -/
theorem scanFrom_lossless (line col : Nat) (before text : Text) (h : before.length = col) :
    Lossless line (before ++ text) col (scanFrom line col text) := by
  -- the recursion of the scanner; what it has passed stands in `before`
  fun_induction scanFrom line col text generalizing before with
  | case1 col =>
    subst h
    exact .nil ⟨[], [], by simp, by simp, .inl rfl⟩
  | case2 col c rest hblank ih =>
    subst h
    have hnext := ih (before ++ [c]) (by simp)
    rw [List.append_assoc, List.singleton_append] at hnext
    exact hnext.blank (by simp) hblank
  | case3 col c rest _ hcomment =>
    subst h
    obtain ⟨rfl, hhead⟩ : c = '/' ∧ rest.head? = some '/' := by simpa using hcomment
    obtain ⟨comment, rfl⟩ := List.head?_eq_some_iff.1 hhead
    exact .nil ⟨[], '/' :: '/' :: comment, by simp, by simp, .inr ⟨comment, rfl⟩⟩
  | case4 col c rest _ _ kind n hmunch ih =>
    subst h
    have hn : n ≤ rest.length := by
      have := munch_le c rest
      rwa [hmunch] at this
    have hkind : IsPiece kind := by
      have := munch_isPiece c rest
      rwa [hmunch] at this
    have hnext := ih (before ++ c :: rest.take n) (by simp; omega)
    rw [List.append_assoc, List.cons_append, List.take_append_drop] at hnext
    refine .cons rfl ⟨rfl, hkind⟩ (by simp) (by simp [Nat.min_eq_left hn]) ?_
    have hstop : stop ⟨kind, c :: rest.take n, line, before.length⟩ = before.length + 1 + n := by
      simp [stop, Nat.min_eq_left hn]
      omega
    rw [hstop]
    exact hnext

theorem scanLines_eq (line : Nat) (lines : List Text) :
    scanLines line lines =
      (lines.mapIdx fun k text => scanLine (line + k) text).flatten ++
        [⟨.eof, [], line + lines.length, 0⟩] := by
  induction lines generalizing line with
  | nil => rfl
  | cons text lines ih =>
    rw [scanLines, ih, List.mapIdx_cons, List.flatten_cons, List.append_assoc, List.length_cons]
    simp only [Nat.add_zero, Nat.add_assoc, Nat.add_comm 1]

/-- **Scanning loses nothing but blanks and comments.**  The lines of a script are the pieces
between its line feeds, each without a carriage return at its end.  Line by line, the tokens of the
script are some tokens that lose nothing of the line, then a `newLine` at the end of the line; the
last token is an `eof` on the line after the last one. -/
theorem scan_lossless (text : Text) :
    text.lines = (text.splitOn '\n').map (Text.dropLastIf '\r') ∧
    ∃ row : Nat → List Token,
      scan text =
        (text.lines.mapIdx fun k line =>
          row k ++ [⟨.newLine, ['\n'], k + 1, line.length⟩]).flatten ++
        [⟨.eof, [], text.lines.length + 1, 0⟩] ∧
      ∀ k line, text.lines[k]? = some line → Lossless (k + 1) line 0 (row k) := by
  refine ⟨Text.lines_eq_splitOn text,
    fun k => scanFrom (k + 1) 0 (text.lines[k]?.getD []), ?_, fun k line hk => ?_⟩
  · rw [scan, scanLines_eq, Nat.add_comm 1]
    have hrow : (text.lines.mapIdx fun k line => scanLine (1 + k) line) =
        text.lines.mapIdx fun k line => scanFrom (k + 1) 0 (text.lines[k]?.getD []) ++
          [⟨.newLine, ['\n'], k + 1, line.length⟩] := by
      rw [List.mapIdx_eq_mapIdx_iff]
      intro k hk
      rw [List.getElem?_eq_getElem hk, Option.getD_some, Nat.add_comm 1 k, scanLine]
    rw [hrow]
  · dsimp only
    rw [hk]
    exact scanFrom_lossless (k + 1) 0 [] line rfl

end Token

end OpcodeLens
