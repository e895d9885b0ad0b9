import OpcodeLens.Proofs.Text.Basic
import OpcodeLens.Text.Position
import Mathlib.Data.Prod.Lex
import Mathlib.Order.Bounds.Basic
import Mathlib.Order.Monotone.Basic

/-!
# Offsets and positions

A byte offset is a *boundary* if the text can be cut there.  Cutting, addressing by line and column
and finding an address again are three walks over the same text; here they are all put in terms of
the part of the text before the boundary.

* `Text.splitAtByte_append`, `Text.slice?_append` : what is cut off at boundaries.
* `Position.past` : the position after a piece of text.  It moves forward
  (`Position.lt_past`), and from the start of a document it counts line feeds and the UTF-16 units
  of the line (`Position.past_zero`).
* `Text.positionFrom_append`, `Text.offsetFrom?_past` : both walks stop at a boundary where they
  should.
* `Text.exists_positionFrom_eq` : an offset that is no boundary has the position of the next one.
* `Text.offset_position_offset` : **from offset to position and back.**
-/

namespace OpcodeLens

/-! ### Order of positions -/

namespace Position

/-- Positions are ordered by line, and on one line by column. -/
instance : LinearOrder Position :=
  LinearOrder.lift' (fun p => toLex (p.line, p.character)) fun p q h => by
    cases p
    cases q
    simpa using h

theorem lt_iff {p q : Position} :
    p < q ↔ p.line < q.line ∨ p.line = q.line ∧ p.character < q.character :=
  Prod.Lex.toLex_lt_toLex

theorem le_iff {p q : Position} :
    p ≤ q ↔ p.line < q.line ∨ p.line = q.line ∧ p.character ≤ q.character :=
  Prod.Lex.toLex_le_toLex

theorem zero_le (p : Position) : zero ≤ p := by
  rw [le_iff, zero]
  dsimp only
  omega

end Position

namespace Text

variable {text before after : Text} {offset : Nat}

/-! ### Measures -/

theorem units_pos (c : Char) : 0 < units c := by
  unfold units
  split_ifs <;> decide

/-- No character has more UTF-16 units than bytes. -/
theorem units_le_utf8Size (c : Char) : units c ≤ c.utf8Size := by
  have hsize := c.utf8Size_pos
  unfold units
  split_ifs with hc
  · exact hsize
  · -- a character outside the basic plane has four bytes
    have hval : ¬ c.val.toNat < 0x10000 := hc
    simp only [Char.utf8Size, UInt32.le_iff_toNat_le, UInt32.toNat_ofNatLT]
    split_ifs <;> omega

theorem unitLength_le_byteLength (text : Text) : text.unitLength ≤ text.byteLength := by
  induction text with
  | nil => exact Nat.le_refl 0
  | cons c rest ih =>
    have := units_le_utf8Size c
    rw [unitLength, byteLength]
    omega

theorem length_le_byteLength (text : Text) : text.length ≤ text.byteLength := by
  induction text with
  | nil => exact Nat.le_refl 0
  | cons c rest ih =>
    have := c.utf8Size_pos
    rw [List.length_cons, byteLength]
    omega

theorem unitLength_pos (h : text ≠ []) : 0 < text.unitLength := by
  cases text with
  | nil => exact absurd rfl h
  | cons c rest =>
    have := units_pos c
    rw [unitLength]
    omega

/-! ### Boundaries -/

/-- The text can be cut at this byte offset. -/
def IsBoundary (text : Text) (offset : Nat) : Prop :=
  ∃ before after : Text, text = before ++ after ∧ before.byteLength = offset

theorem isBoundary_zero (text : Text) : text.IsBoundary 0 := ⟨[], text, rfl, rfl⟩

theorem isBoundary_cons {c : Char} {rest : Text} :
    IsBoundary (c :: rest) offset ↔
      offset = 0 ∨ ∃ next, rest.IsBoundary next ∧ offset = c.utf8Size + next := by
  constructor
  · rintro ⟨before, after, heq, rfl⟩
    rcases List.cons_eq_append_iff.1 heq with ⟨rfl, -⟩ | ⟨head, rfl, hrest⟩
    · exact .inl rfl
    · exact .inr ⟨byteLength head, ⟨head, after, hrest, rfl⟩, rfl⟩
  · rintro (rfl | ⟨next, ⟨before, after, rfl, rfl⟩, rfl⟩)
    · exact isBoundary_zero _
    · exact ⟨c :: before, after, rfl, rfl⟩

/-- An offset behind a character, in the form in which the walks over a text take it apart. -/
theorem exists_utf8Size_add_eq (c : Char) (offset : Nat) :
    ∃ n, c.utf8Size + offset = n + 1 ∧ n + 1 - c.utf8Size = offset := by
  have hpos := c.utf8Size_pos
  exact ⟨c.utf8Size + offset - 1, by omega, by omega⟩

theorem splitAtByte_cons_add (c : Char) (rest : Text) (offset : Nat) :
    splitAtByte (c :: rest) (c.utf8Size + offset) =
      (splitAtByte rest offset).map fun (before, after) => (c :: before, after) := by
  obtain ⟨n, hn, hrest⟩ := exists_utf8Size_add_eq c offset
  rw [hn, splitAtByte, if_pos (by omega), hrest]

theorem splitAtByte_append (before after : Text) :
    splitAtByte (before ++ after) before.byteLength = some (before, after) := by
  induction before with
  | nil => cases after <;> rfl
  | cons c before ih =>
    rw [List.cons_append, byteLength, splitAtByte_cons_add, ih, Option.map_some]

/-- The piece of the text in a byte range; there is none unless both ends are boundaries in
order. -/
def slice? (text : Text) (bytes : ByteRange) : Option Text :=
  if bytes.stop < bytes.start then none
  else
    (text.splitAtByte bytes.start).bind fun (_, rest) =>
      (rest.splitAtByte (bytes.stop - bytes.start)).map Prod.fst

theorem slice?_append (before piece after : Text) :
    slice? (before ++ piece ++ after) ⟨before.byteLength, before.byteLength + piece.byteLength⟩ =
      some piece := by
  rw [slice?, if_neg (by simp), List.append_assoc, splitAtByte_append, Option.bind_some]
  dsimp only
  rw [Nat.add_sub_cancel_left, splitAtByte_append, Option.map_some]

/-- The part of the text after its last line feed. -/
def lastLine (text : Text) : Text := (text.reverse.takeWhile (· ≠ '\n')).reverse

theorem lastLine_suffix (text : Text) : text.lastLine <:+ text := by
  rw [← List.reverse_prefix, lastLine, List.reverse_reverse]
  exact List.takeWhile_prefix _

theorem lastLine_concat (text : Text) (c : Char) :
    lastLine (text ++ [c]) = if c = '\n' then [] else text.lastLine ++ [c] := by
  rw [lastLine, List.reverse_concat]
  split_ifs with hc <;> simp [hc, lastLine]

theorem eq_append_lastLine (text : Text) :
    text = text.lastLine ∨ ∃ before, text = before ++ '\n' :: text.lastLine := by
  induction text using List.reverseRecOn with
  | nil => exact .inl rfl
  | append_singleton text c ih =>
    rw [lastLine_concat]
    split_ifs with hc
    · exact .inr ⟨text, by rw [hc]⟩
    · rcases ih with htext | ⟨before, htext⟩
      · exact .inl (by rw [← htext])
      · exact .inr ⟨before, by rw [← List.cons_append, ← List.append_assoc, ← htext]⟩

theorem lastLine_subset_append (before after : Text) :
    after.lastLine ⊆ (before ++ after).lastLine := by
  induction after using List.reverseRecOn with
  | nil => exact List.nil_subset _
  | append_singleton after c ih =>
    rw [← List.append_assoc, lastLine_concat, lastLine_concat]
    split_ifs
    · exact List.Subset.refl _
    · exact List.append_subset.2 ⟨fun d hd => List.mem_append_left _ (ih hd), by simp⟩

theorem endsInWord_of_lastLine (h : ∀ c ∈ text.lastLine, isBlank c = true) :
    endsInWord false text = false := by
  rcases List.eq_nil_or_concat text with rfl | ⟨init, c, rfl⟩
  · rfl
  · rw [List.concat_eq_append] at h ⊢
    rw [lastLine_concat] at h
    rw [endsInWord, List.getLast?_concat, Option.map_some, Option.getD_some]
    split_ifs at h with hc
    · rw [hc]
      decide
    · have hblank : isBlank c = true := h c (by simp)
      exact Bool.eq_false_iff.2 fun hword => by simp [isBlank_of_isWord hword] at hblank

theorem lineHead_append (before after : Text) :
    lineHead (before ++ after) before.byteLength = before.lastLine := by
  rw [lineHead, byteLength_append, Nat.min_eq_left (Nat.le_add_right _ _), splitAtByte_append]
  rfl

end Text

/-! ### The position after a piece of text -/

namespace Position

/-- The position after a piece of text that starts at `p`. -/
def past (p : Position) (text : Text) : Position := text.foldl after p

variable {p : Position} {text : Text}

theorem past_nil (p : Position) : p.past [] = p := rfl

theorem past_cons (p : Position) (c : Char) (text : Text) :
    p.past (c :: text) = (p.after c).past text := rfl

theorem past_append (p : Position) (before after : Text) :
    p.past (before ++ after) = (p.past before).past after :=
  List.foldl_append

theorem lt_after (p : Position) (c : Char) : p < p.after c := by
  have := Text.units_pos c
  rw [lt_iff, after]
  split_ifs
  · exact .inl (Nat.lt_succ_self p.line)
  · exact .inr ⟨rfl, Nat.lt_add_of_pos_right this⟩

theorem le_past (p : Position) (text : Text) : p ≤ p.past text := by
  induction text generalizing p with
  | nil => exact le_refl p
  | cons c text ih => exact (lt_after p c).le.trans (ih (p.after c))

/-- **Text moves the position forward.** -/
theorem lt_past (h : text ≠ []) : p < p.past text := by
  cases text with
  | nil => exact absurd rfl h
  | cons c text => exact (lt_after p c).trans_le (le_past (p.after c) text)

/-- Text without a line feed stays on its line. -/
theorem past_of_not_mem (h : '\n' ∉ text) :
    p.past text = ⟨p.line, p.character + text.unitLength⟩ := by
  induction text generalizing p with
  | nil => rfl
  | cons c text ih =>
    obtain ⟨hc, htext⟩ := not_or.1 (mt List.mem_cons.2 h)
    rw [past_cons, ih htext, after, if_neg (Ne.symm hc), Text.unitLength, Nat.add_assoc]

/-- **From the start of a document, a position counts the line feeds and the units after the last
one.** -/
theorem past_zero (text : Text) :
    zero.past text = ⟨text.count '\n', text.lastLine.unitLength⟩ := by
  -- from the end of the text, since its last line feed decides
  induction text using List.reverseRecOn with
  | nil => rfl
  | append_singleton text c ih =>
    rw [past_append, past_cons, past_nil, ih, after, Text.lastLine_concat, List.count_append]
    split_ifs with hc <;> simp [hc, Text.unitLength]

theorem past_zero_le (text : Text) :
    (zero.past text).line ≤ text.byteLength ∧ (zero.past text).character ≤ text.byteLength := by
  rw [past_zero]
  constructor
  · exact List.count_le_length.trans text.length_le_byteLength
  · obtain ⟨before, hbefore⟩ := text.lastLine_suffix
    calc text.lastLine.unitLength ≤ text.lastLine.byteLength := Text.unitLength_le_byteLength _
      _ ≤ Text.byteLength before + text.lastLine.byteLength := Nat.le_add_left _ _
      _ = text.byteLength := by rw [← Text.byteLength_append, hbefore]

end Position

namespace Text

/-! ### The two walks -/

theorem positionFrom_cons_add (p : Position) (c : Char) (rest : Text) (offset : Nat) :
    positionFrom p (c :: rest) (c.utf8Size + offset) = positionFrom (p.after c) rest offset := by
  obtain ⟨n, hn, hrest⟩ := exists_utf8Size_add_eq c offset
  rw [hn, positionFrom, hrest]

theorem positionFrom_append (p : Position) (before after : Text) :
    positionFrom p (before ++ after) before.byteLength = p.past before := by
  induction before generalizing p with
  | nil => cases after <;> rfl
  | cons c before ih =>
    rw [List.cons_append, byteLength, positionFrom_cons_add, ih, Position.past_cons]

/-- **Any offset has the position of the first boundary from it on.** -/
theorem exists_positionFrom_eq (p : Position) (text : Text) (offset : Nat) :
    ∃ before after, text = before ++ after ∧ positionFrom p text offset = p.past before ∧
      IsLeast {b | text.IsBoundary b ∧ min offset text.byteLength ≤ b} before.byteLength := by
  fun_induction positionFrom p text offset with
  | case1 p offset =>
    exact ⟨[], [], rfl, rfl, ⟨isBoundary_zero [], Nat.min_le_right _ _⟩, fun _ _ => Nat.zero_le _⟩
  | case2 p c rest =>
    exact ⟨[], c :: rest, rfl, rfl, ⟨isBoundary_zero _, Nat.min_le_left _ _⟩,
      fun _ _ => Nat.zero_le _⟩
  | case3 p c rest offset ih =>
    have hpos := c.utf8Size_pos
    obtain ⟨before, after, rfl, hposition, ⟨hboundary, hle⟩, hleast⟩ := ih
    refine ⟨c :: before, after, rfl, hposition, ⟨⟨c :: before, after, rfl, rfl⟩, ?_⟩, ?_⟩
    · rw [byteLength, byteLength]
      omega
    · rintro b ⟨hb, hmin⟩
      rw [byteLength] at hmin ⊢
      -- the boundary is not in front of `c`, so it is one of the rest
      rcases isBoundary_cons.1 hb with rfl | ⟨next, hnext, rfl⟩
      · omega
      · have := hleast ⟨hnext, by omega⟩
        omega

/-- **The position of a boundary leads back to it.** -/
theorem offsetFrom?_past (p : Position) (offset : Nat) (before after : Text) :
    offsetFrom? (p.past before) offset p (before ++ after) = some (offset + before.byteLength) := by
  induction before generalizing p offset with
  | nil => cases after <;> simp [offsetFrom?, Position.past_nil, byteLength]
  | cons c before ih =>
    -- the walk does not stop at `c`: its target is on a later line, or further on without a line
    -- feed between
    have hstep : ¬ (p.line = (p.past (c :: before)).line ∧
        ((p.past (c :: before)).character ≤ p.character ∨ c = '\n')) := by
      rintro ⟨hline, hstop⟩
      rcases hstop with hcharacter | rfl
      · have hlt : p < p.past (c :: before) := Position.lt_past (List.cons_ne_nil c before)
        rw [Position.lt_iff] at hlt
        omega
      · have hle := Position.le_past (p.after '\n') before
        rw [Position.le_iff, ← Position.past_cons, Position.after, if_pos rfl] at hle
        dsimp only at hle
        omega
    rw [List.cons_append, offsetFrom?, if_neg hstep, Position.past_cons, ih, byteLength,
      Nat.add_assoc]

/-! ### Whole texts -/

theorem positionAt_append (before after : Text) :
    (before ++ after).positionAt before.byteLength = Position.zero.past before :=
  positionFrom_append .zero before after

theorem offsetAt?_positionAt_append (before after : Text) :
    (before ++ after).offsetAt? ((before ++ after).positionAt before.byteLength) =
      some before.byteLength := by
  rw [positionAt_append]
  exact (offsetFrom?_past .zero 0 before after).trans (by rw [Nat.zero_add])

/-- **Boundaries in order have positions in order.** -/
theorem strictMonoOn_positionAt (text : Text) :
    StrictMonoOn text.positionAt {b | text.IsBoundary b} := by
  rintro _ ⟨before, after, rfl, rfl⟩ _ ⟨before', after', heq, rfl⟩ hlt
  -- the nearer boundary cuts the part before the other one
  obtain ⟨mid, hmid⟩ : before <+: before' := by
    refine List.prefix_of_prefix_length_le ⟨after, rfl⟩ ⟨after', heq.symm⟩ ?_
    by_contra hlength
    obtain ⟨mid, rfl⟩ : before' <+: before :=
      List.prefix_of_prefix_length_le ⟨after', heq.symm⟩ ⟨after, rfl⟩ (by omega)
    rw [byteLength_append] at hlt
    omega
  subst hmid
  have hne : mid ≠ [] := by
    rintro rfl
    simp at hlt
  rw [positionAt_append, heq, positionAt_append, Position.past_append]
  exact Position.lt_past hne

theorem positionAt_le (text : Text) (offset : Nat) :
    (text.positionAt offset).line ≤ text.byteLength ∧
      (text.positionAt offset).character ≤ text.byteLength := by
  obtain ⟨before, after, rfl, hposition, -⟩ := exists_positionFrom_eq .zero text offset
  rw [positionAt, hposition, byteLength_append]
  obtain ⟨hline, hcharacter⟩ := Position.past_zero_le before
  omega

/-- **From offset to position and back.**  In a text whose positions are written with 32-bit words,
each offset leads to a position that fits in them and from there to the first boundary that is not
before the offset, or to the end of the text.  So boundaries have positions of their own, in the
same order: the number of line feeds before the boundary, and the number of UTF-16 units between the
start of its line and the boundary. -/
theorem offset_position_offset (text : Text) (hsize : text.byteLength < UInt32.size) :
    (∀ offset, (text.positionAt offset).line < UInt32.size ∧
      (text.positionAt offset).character < UInt32.size) ∧
    (∀ offset, ∃ b, text.offsetAt? (text.positionAt offset) = some b ∧
      IsLeast {b | text.IsBoundary b ∧ min offset text.byteLength ≤ b} b) ∧
    Set.InjOn text.positionAt {b | text.IsBoundary b} ∧
    StrictMonoOn text.positionAt {b | text.IsBoundary b} ∧
    ∀ before after, text = before ++ after →
      text.positionAt before.byteLength =
        ⟨before.count '\n', (text.lineHead before.byteLength).unitLength⟩ := by
  refine ⟨fun offset => ?_, fun offset => ?_, (strictMonoOn_positionAt text).injOn,
    strictMonoOn_positionAt text, ?_⟩
  · have := positionAt_le text offset
    omega
  · obtain ⟨before, after, htext, hposition, hleast⟩ := exists_positionFrom_eq .zero text offset
    refine ⟨before.byteLength, ?_, hleast⟩
    have hback := offsetFrom?_past .zero 0 before after
    rwa [Nat.zero_add, ← htext, ← hposition] at hback
  · rintro before after rfl
    rw [positionAt_append, Position.past_zero, lineHead_append]

/-- An offset inside a character of two units leads to the end of that character. -/
theorem offset_inside_character :
    byteLength ['a', '😀', '\r', '\n', '\n', 'b'] < UInt32.size ∧
    offsetAt? ['a', '😀', '\r', '\n', '\n', 'b'] ⟨0, 3⟩ = some 5 ∧
    IsLeast {b | IsBoundary ['a', '😀', '\r', '\n', '\n', 'b'] b ∧ min 3 9 ≤ b} 5 := by
  have hsize : byteLength ['a', '😀', '\r', '\n', '\n', 'b'] < UInt32.size := by decide
  obtain ⟨b, hback, hleast⟩ := (offset_position_offset _ hsize).2.1 3
  obtain rfl : 5 = b := Option.some.inj ((by decide : some 5 = _).trans hback)
  exact ⟨hsize, hback, hleast⟩

end Text

end OpcodeLens
