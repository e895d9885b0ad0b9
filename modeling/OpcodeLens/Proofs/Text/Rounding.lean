import OpcodeLens.Proofs.Text.Position

/-!
# From positions to offsets

An editor may ask for any position, also for one that no boundary of the text has.  The walk over
the text stops at the first boundary on the line of the position that is not before the position, or
else at the end of the line.

* `Text.onLine_iff`, `Text.IsLineEnd` : boundaries on a line, and its end.
* `Text.exists_offsetFrom?_eq` : where the walk stops; `Text.exists_offsetAt?_eq` : the same by
  boundaries, as the least of `Text.stops`.
* `Text.positionAt_eq_of_isPlace`, `Text.positionAt_eq_of_insidePair`,
  `Text.isLineEnd_of_beyond` : the three ways in which a position can stand to the boundaries of
  its line.
* `Text.offset_rounds_and_clamps` : **from position to offset.**
-/

namespace OpcodeLens

namespace Text

variable {text before after before' after' : Text} {p q : Position} {n b o o' : Nat}

/-! ### Boundaries on a line -/

/-- The offset is a boundary on the line that is numbered `n` from zero. -/
def OnLine (text : Text) (n b : Nat) : Prop := text.IsBoundary b ∧ (text.positionAt b).line = n

/-- The offset is that of the line feed which ends line `n`, or that of the end of the text if `n`
is the last line. -/
def IsLineEnd (text : Text) (n b : Nat) : Prop :=
  ∃ before after, text = before ++ after ∧ before.byteLength = b ∧ before.count '\n' = n ∧
    ∀ c ∈ after.head?, c = '\n'

/-- The boundaries on the line of a position that are not before it. -/
def reaching (text : Text) (p : Position) : Set Nat :=
  {b | text.OnLine p.line b ∧ p.character ≤ (text.positionAt b).character}

/-- The position is that of a boundary. -/
def IsPlace (text : Text) (p : Position) : Prop := ∃ b, text.IsBoundary b ∧ text.positionAt b = p

/-- The position lies between the two units of a character. -/
def InsidePair (text : Text) (p : Position) : Prop :=
  ∃ (before : Text) (c : Char) (after : Text), text = before ++ c :: after ∧ units c = 2 ∧
    p.line = (text.positionAt before.byteLength).line ∧
    p.character = (text.positionAt before.byteLength).character + 1

theorem onLine_iff : text.OnLine n b ↔
    ∃ before after, text = before ++ after ∧ before.byteLength = b ∧ before.count '\n' = n := by
  constructor
  · rintro ⟨⟨before, after, rfl, rfl⟩, hline⟩
    rw [positionAt_append, Position.past_zero] at hline
    exact ⟨before, after, rfl, rfl, hline⟩
  · rintro ⟨before, after, rfl, rfl, hcount⟩
    refine ⟨⟨before, after, rfl, rfl⟩, ?_⟩
    rw [positionAt_append, Position.past_zero]
    exact hcount

/-- The part of a text before one boundary starts with the part before an earlier one. -/
theorem exists_append_of_byteLength_le (heq : before ++ after = before' ++ after')
    (h : before.byteLength ≤ before'.byteLength) :
    ∃ mid, before' = before ++ mid ∧ after = mid ++ after' := by
  rcases List.append_eq_append_iff.1 heq with ⟨mid, hbefore, hafter⟩ | ⟨mid, rfl, rfl⟩
  · exact ⟨mid, hbefore, hafter⟩
  · -- the first part is not the longer one, so there is nothing between the two
    have hmid : byteLength mid = 0 := by
      rw [byteLength_append] at h
      omega
    have hlength := length_le_byteLength mid
    obtain rfl : mid = [] := List.eq_nil_of_length_eq_zero (by omega)
    exact ⟨[], by simp, by simp⟩

/-- **The end of a line is the last boundary on it.** -/
theorem IsLineEnd.isGreatest (h : text.IsLineEnd n o) : IsGreatest {b | text.OnLine n b} o := by
  obtain ⟨before, after, rfl, rfl, hcount, hend⟩ := h
  refine ⟨onLine_iff.2 ⟨before, after, rfl, rfl, hcount⟩, fun b hb => ?_⟩
  obtain ⟨before', after', heq, rfl, hcount'⟩ := onLine_iff.1 hb
  by_contra hlt
  obtain ⟨mid, rfl, rfl⟩ := exists_append_of_byteLength_le heq (by omega)
  -- what stands between the two starts with a line feed
  cases mid with
  | nil => simp at hlt
  | cons c mid =>
    obtain rfl : c = '\n' := hend c rfl
    rw [List.count_append, List.count_cons_self] at hcount'
    omega

/-- On one line, boundaries in order have columns in order. -/
theorem character_le_of_onLine (hb : text.OnLine n b) (ho : text.OnLine n o) (hle : b ≤ o) :
    (text.positionAt b).character ≤ (text.positionAt o).character := by
  have h := (strictMonoOn_positionAt text).monotoneOn hb.1 ho.1 hle
  rw [Position.le_iff, hb.2, ho.2] at h
  omega

/-! ### Where the walk stops -/

/-- **Where the walk stops**: on the line of its target, at the first boundary that is not before
the target, or at the end of the line. -/
theorem exists_offsetFrom?_eq (target : Position) (offset : Nat) (p : Position) (text : Text)
    (hline : p.line ≤ target.line) (hcount : target.line ≤ p.line + text.count '\n') :
    ∃ before after, text = before ++ after ∧
      offsetFrom? target offset p text = some (offset + before.byteLength) ∧
      (p.past before).line = target.line ∧
      (target.character ≤ (p.past before).character ∨ ∀ c ∈ after.head?, c = '\n') ∧
      ∀ head tail, before = head ++ tail → tail ≠ [] → (p.past head).line = target.line →
        (p.past head).character < target.character := by
  fun_induction offsetFrom? target offset p text with
  | case1 offset p heq =>
    refine ⟨[], [], rfl, rfl, heq, .inr (by simp), fun head tail hnil hne => ?_⟩
    exact absurd (List.append_eq_nil_iff.1 hnil.symm).2 hne
  | case2 offset p hne =>
    rw [List.count_nil] at hcount
    omega
  | case3 offset p c rest hstop =>
    obtain ⟨heq, hreach⟩ := hstop
    refine ⟨[], c :: rest, rfl, rfl, heq, ?_, fun head tail hnil hne => ?_⟩
    · rcases hreach with hreach | rfl
      · exact .inl hreach
      · exact .inr (by simp)
    · exact absurd (List.append_eq_nil_iff.1 hnil.symm).2 hne
  | case4 offset p c rest hstop ih =>
    have hnext : (p.after c).line ≤ target.line ∧
        target.line ≤ (p.after c).line + rest.count '\n' := by
      rw [Position.after]
      by_cases hc : c = '\n'
      · rw [hc, List.count_cons_self] at hcount
        rw [if_pos hc]
        have hne : p.line ≠ target.line := fun heq => hstop ⟨heq, .inr hc⟩
        dsimp only
        omega
      · rw [List.count_cons_of_ne hc] at hcount
        rw [if_neg hc]
        exact ⟨hline, hcount⟩
    obtain ⟨before, after, rfl, hoffset, hpast, hend, hfirst⟩ := ih hnext.1 hnext.2
    refine ⟨c :: before, after, rfl, ?_, hpast, hend, ?_⟩
    · rw [hoffset, byteLength, Nat.add_assoc]
    · intro head tail heq hne hhead
      rcases List.cons_eq_append_iff.1 heq with ⟨rfl, -⟩ | ⟨head, rfl, rfl⟩
      · -- the walk did not stop at the start
        by_contra hreach
        exact hstop ⟨hhead, .inl (Nat.le_of_not_lt hreach)⟩
      · exact hfirst head tail rfl hne hhead

theorem offsetFrom?_eq_none {target : Position} {offset : Nat}
    (h : p.line + text.count '\n' < target.line) : offsetFrom? target offset p text = none := by
  fun_induction offsetFrom? target offset p text with
  | case1 offset p heq => omega
  | case2 offset p hne => rfl
  | case3 offset p c rest hstop => omega
  | case4 offset p c rest hstop ih =>
    refine ih ?_
    rw [Position.after]
    by_cases hc : c = '\n'
    · rw [hc, List.count_cons_self] at h
      rw [if_pos hc]
      dsimp only
      omega
    · rw [List.count_cons_of_ne hc] at h
      rw [if_neg hc]
      exact h

/-- The boundaries on the line of a position that are not before it, and the end of the line. -/
def stops (text : Text) (p : Position) : Set Nat :=
  {b | text.OnLine p.line b ∧
    (p.character ≤ (text.positionAt b).character ∨ text.IsLineEnd p.line b)}

/-- **A position on one of the lines leads to the first place where the walk can stop.** -/
theorem exists_offsetAt?_eq (h : p.line ≤ text.count '\n') :
    ∃ o, text.offsetAt? p = some o ∧ IsLeast (text.stops p) o := by
  obtain ⟨before, after, rfl, hoffset, hline, hend, hfirst⟩ :=
    exists_offsetFrom?_eq p 0 .zero text (Nat.zero_le _) (by simpa [Position.zero] using h)
  rw [Nat.zero_add] at hoffset
  rw [Position.past_zero] at hline
  refine ⟨before.byteLength, hoffset, ⟨onLine_iff.2 ⟨before, after, rfl, rfl, hline⟩, ?_⟩, ?_⟩
  · rw [positionAt_append]
    exact hend.imp id fun hend => ⟨before, after, rfl, rfl, hline, hend⟩
  · rintro b ⟨hb, hstop⟩
    obtain ⟨head, tail, heq, rfl, hcount⟩ := onLine_iff.1 hb
    by_contra hlt
    obtain ⟨mid, rfl, rfl⟩ := exists_append_of_byteLength_le heq.symm (by omega)
    have hne : mid ≠ [] := by
      rintro rfl
      simp at hlt
    rcases hstop with hreach | hlineEnd
    · have hbefore := hfirst head mid rfl hne (by rw [Position.past_zero]; exact hcount)
      rw [List.append_assoc, positionAt_append] at hreach
      omega
    · -- a boundary before the end of the line is not the end of it
      have hle := hlineEnd.isGreatest.2 (onLine_iff.2 ⟨head ++ mid, after, rfl, rfl, hline⟩)
      omega

theorem offsetAt?_eq_none_iff : text.offsetAt? p = none ↔ text.count '\n' < p.line := by
  constructor
  · intro hnone
    by_contra h
    obtain ⟨o, ho, -⟩ := exists_offsetAt?_eq (Nat.le_of_not_lt h)
    rw [hnone] at ho
    cases ho
  · intro h
    exact offsetFrom?_eq_none (by simpa [Position.zero] using h)

theorem isLeast_stops (h : text.offsetAt? p = some o) : IsLeast (text.stops p) o := by
  have hline : ¬ text.count '\n' < p.line := by
    rw [← offsetAt?_eq_none_iff, h]
    exact Option.some_ne_none o
  obtain ⟨b, hb, hstops⟩ := exists_offsetAt?_eq (Nat.le_of_not_lt hline)
  rw [h, Option.some.injEq] at hb
  rwa [hb]

/-! ### Rounding -/

theorem isLeast_reaching (ho : IsLeast (text.stops p) o) (hne : (text.reaching p).Nonempty) :
    IsLeast (text.reaching p) o := by
  refine ⟨⟨ho.1.1, ?_⟩, fun b hb => ho.2 ⟨hb.1, .inl hb.2⟩⟩
  obtain ⟨b, hb, hreach⟩ := hne
  rcases ho.1.2 with hreach | hend
  · exact hreach
  · -- no boundary of the line stands after its end
    exact hreach.trans (character_le_of_onLine hb ho.1.1 (hend.isGreatest.2 hb))

theorem isLineEnd_of_reaching_eq_empty (ho : IsLeast (text.stops p) o)
    (hempty : text.reaching p = ∅) : text.IsLineEnd p.line o := by
  refine ho.1.2.resolve_left fun hreach => ?_
  have hmem : o ∈ text.reaching p := ⟨ho.1.1, hreach⟩
  rw [hempty] at hmem
  exact hmem

theorem positionAt_eq_of_isPlace (ho : IsLeast (text.stops p) o) (h : text.IsPlace p) :
    text.positionAt o = p := by
  obtain ⟨b, hb, rfl⟩ := h
  have hon : text.OnLine (text.positionAt b).line b := ⟨hb, rfl⟩
  have hreach := isLeast_reaching ho ⟨b, hon, Nat.le_refl _⟩
  have hle := (strictMonoOn_positionAt text).monotoneOn ho.1.1.1 hb
    (hreach.2 ⟨hon, Nat.le_refl _⟩)
  refine le_antisymm hle (Position.le_iff.2 (.inr ⟨ho.1.1.2.symm, hreach.1.2⟩))

/-- The position after a character. -/
theorem positionAt_append_singleton {c : Char} (h : text = before ++ c :: after) :
    text.positionAt (byteLength (before ++ [c])) =
      (text.positionAt before.byteLength).after c := by
  have hsplit : text = (before ++ [c]) ++ after := by
    rw [h, List.append_assoc, List.singleton_append]
  have hafter : text.positionAt (byteLength (before ++ [c])) =
      Position.zero.past (before ++ [c]) := by
    rw [hsplit, positionAt_append]
  rw [hafter, Position.past_append, h, positionAt_append, Position.past_cons, Position.past_nil]

theorem after_of_units_eq_two {c : Char} (h : units c = 2) (p : Position) :
    p.after c = ⟨p.line, p.character + 2⟩ := by
  have hc : c ≠ '\n' := by
    rintro rfl
    cases h
  rw [Position.after, if_neg hc, h]

/-- Between the two units of a character there is no boundary, so the position leads to the end of
the character. -/
theorem positionAt_eq_of_insidePair (ho : IsLeast (text.stops p) o) (h : text.InsidePair p) :
    text.positionAt o = ⟨p.line, p.character + 1⟩ := by
  obtain ⟨before, c, after, htext, hunits, hline, hcharacter⟩ := h
  have hstart : text.OnLine p.line before.byteLength :=
    ⟨⟨before, c :: after, htext, rfl⟩, hline.symm⟩
  have hposition : text.positionAt (byteLength (before ++ [c])) = ⟨p.line, p.character + 1⟩ := by
    rw [positionAt_append_singleton htext, after_of_units_eq_two hunits, hline, hcharacter]
  have hstop : text.OnLine p.line (byteLength (before ++ [c])) :=
    ⟨⟨before ++ [c], after, by rw [htext, List.append_assoc, List.singleton_append], rfl⟩,
      by rw [hposition]⟩
  have hreach := isLeast_reaching ho ⟨_, hstop, by rw [hposition]; exact Nat.le_succ _⟩
  have hle : o ≤ byteLength (before ++ [c]) :=
    hreach.2 ⟨hstop, by rw [hposition]; exact Nat.le_succ _⟩
  -- the boundary is not before the character, and there is none inside of it
  obtain ⟨head, tail, heq, rfl, -⟩ := onLine_iff.1 ho.1.1
  have hlt : before.byteLength < byteLength head := by
    by_contra hge
    have := character_le_of_onLine ho.1.1 hstart (Nat.le_of_not_lt hge)
    have := hreach.1.2
    omega
  obtain ⟨mid, rfl, hmid⟩ := exists_append_of_byteLength_le (htext.symm.trans heq) hlt.le
  cases mid with
  | nil => simp at hlt
  | cons d mid =>
    obtain ⟨rfl, rfl⟩ := List.cons_eq_cons.1 hmid
    have : byteLength (before ++ c :: mid) = byteLength (before ++ [c]) := by
      simp only [byteLength_append, byteLength] at hle ⊢
      omega
    rw [this, hposition]

theorem units_le_two (c : Char) : units c ≤ 2 := by
  unfold units
  split_ifs <;> decide

/-- A position that is not on a boundary and not inside a character lies past the end of its
line. -/
theorem isLineEnd_of_beyond (ho : IsLeast (text.stops p) o) (hplace : ¬ text.IsPlace p)
    (hpair : ¬ text.InsidePair p) :
    text.IsLineEnd p.line o ∧ (text.positionAt o).character < p.character := by
  have hne : p.character ≠ (text.positionAt o).character := by
    intro heq
    have hposition : text.positionAt o = ⟨p.line, p.character⟩ := by rw [heq, ← ho.1.1.2]
    exact hplace ⟨o, ho.1.1.1, hposition⟩
  have hbeyond : ¬ p.character ≤ (text.positionAt o).character := by
    intro hreach
    obtain ⟨head, tail, rfl, rfl, hcount⟩ := onLine_iff.1 ho.1.1
    rcases List.eq_nil_or_concat' head with rfl | ⟨init, c, rfl⟩
    · rw [positionAt_append] at hreach hne
      exact hne (Nat.le_zero.1 hreach)
    have htext : init ++ [c] ++ tail = init ++ c :: tail := by
      rw [List.append_assoc, List.singleton_append]
    rw [positionAt_append_singleton htext, Position.after] at hreach hne
    by_cases hc : c = '\n'
    · -- after a line feed the column is zero
      rw [if_pos hc] at hreach hne
      exact hne (Nat.le_zero.1 hreach)
    rw [if_neg hc] at hreach hne
    rw [List.count_append, List.count_singleton, if_neg (by simpa using hc), Nat.add_zero] at hcount
    have hon : OnLine (init ++ [c] ++ tail) p.line (byteLength init) :=
      onLine_iff.2 ⟨init, c :: tail, htext, rfl, hcount⟩
    -- the boundary before the last character is before the position
    have hbefore :
        (positionAt (init ++ [c] ++ tail) (byteLength init)).character < p.character := by
      by_contra hge
      have hle := ho.2 ⟨hon, .inl (Nat.le_of_not_lt hge)⟩
      have := c.utf8Size_pos
      simp only [byteLength_append, byteLength] at hle
      omega
    have htwo := units_le_two c
    dsimp only at hreach hne
    exact hpair ⟨init, c, tail, htext, by omega, hon.2.symm, by omega⟩
  exact ⟨ho.1.2.resolve_left hbeyond, Nat.lt_of_not_le hbeyond⟩

/-- **Positions in order lead to offsets in order.** -/
theorem offset_le_of_le (hp : IsLeast (text.stops p) o) (hq : IsLeast (text.stops q) o')
    (h : p ≤ q) : o ≤ o' := by
  rcases Position.le_iff.1 h with hline | ⟨hline, hcharacter⟩
  · -- on different lines, any two boundaries are in order
    have hlt : text.positionAt o < text.positionAt o' := by
      rw [Position.lt_iff, hp.1.1.2, hq.1.1.2]
      exact .inl hline
    exact ((strictMonoOn_positionAt text).lt_iff_lt hp.1.1.1 hq.1.1.1).1 hlt |>.le
  · obtain ⟨⟨hon, hstop⟩, -⟩ := hq
    rw [← hline] at hon hstop
    exact hp.2 ⟨hon, hstop.imp_left hcharacter.trans⟩

/-- **From position to offset.**  There is no offset if the text has no such line.  On a line that
exists, a position leads to the first boundary of the line that is not before it, or to the end of
the line if there is none.  So the position of a boundary leads back to it, a position between the
two units of a character to the end of that character, and any other one to the end of its line.
Positions in order lead to offsets in order.  In a text whose positions are written with 32-bit
words, the positions of all boundaries fit in them. -/
theorem offset_rounds_and_clamps (text : Text) (hsize : text.byteLength < UInt32.size) :
    (∀ p, text.offsetAt? p = none ↔ text.count '\n' < p.line) ∧
    (∀ p : Position, p.line ≤ text.count '\n' → ∃ o, text.offsetAt? p = some o ∧
      text.OnLine p.line o ∧
      ((text.reaching p).Nonempty → IsLeast (text.reaching p) o) ∧
      (text.reaching p = ∅ → text.IsLineEnd p.line o) ∧
      (text.IsPlace p → text.positionAt o = p) ∧
      (text.InsidePair p → text.positionAt o = ⟨p.line, p.character + 1⟩) ∧
      (¬ text.IsPlace p → ¬ text.InsidePair p →
        text.IsLineEnd p.line o ∧ (text.positionAt o).character < p.character)) ∧
    (∀ p q o o', text.offsetAt? p = some o → text.offsetAt? q = some o' → p ≤ q → o ≤ o') ∧
    ∀ b, (text.positionAt b).line < UInt32.size ∧ (text.positionAt b).character < UInt32.size := by
  refine ⟨fun p => offsetAt?_eq_none_iff, fun p hline => ?_, ?_, fun b => ?_⟩
  · obtain ⟨o, ho, hstops⟩ := exists_offsetAt?_eq hline
    exact ⟨o, ho, hstops.1.1, isLeast_reaching hstops, isLineEnd_of_reaching_eq_empty hstops,
      positionAt_eq_of_isPlace hstops, positionAt_eq_of_insidePair hstops,
      isLineEnd_of_beyond hstops⟩
  · intro p q o o' ho ho' hle
    exact offset_le_of_le (isLeast_stops ho) (isLeast_stops ho') hle
  · have := positionAt_le text b
    omega

/-- A position inside a character of two units, and one on a line that does not exist. -/
theorem offset_inside_pair :
    byteLength ['a', '😀', '\r', '\n', 'b'] < UInt32.size ∧
    offsetAt? ['a', '😀', '\r', '\n', 'b'] ⟨0, 2⟩ = some 5 ∧
    positionAt ['a', '😀', '\r', '\n', 'b'] 5 = ⟨0, 3⟩ ∧
    offsetAt? ['a', '😀', '\r', '\n', 'b'] ⟨2, 0⟩ = none := by
  have hsize : byteLength ['a', '😀', '\r', '\n', 'b'] < UInt32.size := by decide
  obtain ⟨hnone, hsome, -⟩ := offset_rounds_and_clamps _ hsize
  obtain ⟨o, ho, -, -, -, -, hpair, -⟩ := hsome ⟨0, 2⟩ (by decide)
  obtain rfl : 5 = o := Option.some.inj ((by decide : some 5 = _).trans ho)
  exact ⟨hsize, ho, hpair ⟨['a'], '😀', ['\r', '\n', 'b'], rfl, rfl, rfl, rfl⟩,
    (hnone ⟨2, 0⟩).2 (by decide)⟩

end Text

end OpcodeLens
