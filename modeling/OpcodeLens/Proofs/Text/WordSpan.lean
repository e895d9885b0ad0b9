import OpcodeLens.Proofs.Text.Position
import OpcodeLens.Text.WordSpan

/-!
# Words around the cursor

The word under a cursor is found by walking from the cursor in both directions.  Where the cursor
stands within the word makes no difference: the walks end at the ends of the run of admitted
characters that the cursor touches.

* `Text.IsRun` : a run of admitted characters that cannot be extended.
* `Text.IsRun.runAt?_eq`, `Text.exists_isRun_of_runAt?` : **the word under a cursor is the run that
  the cursor touches**, from any place in it.
* `Text.runAt?_append`, `Text.isRun_around` : that run, by the text before and after the cursor.
* `Text.MemberAt` : `owner.member` in a text, and `Text.MemberAt.dottedWord?_eq` : it is found from
  any place in it.
* `Text.simpleWord?_of_runAt?`, `Text.simpleWord?_of_runAt?_cons` : the plain word of a run, without
  the `@` that the run may start with.
* `Text.slice?_simpleWord?` : where the plain word under a cursor stands.
-/

namespace OpcodeLens

namespace Text

variable {text before run after : Text} {admits : Char → Bool} {offset : Nat} {c : Char}

/-! ### Characters of one byte -/

theorem isNameChar_toNat_lt (h : isNameChar c = true) : c.toNat < 0x80 := by
  unfold isNameChar Char.isAlphanum Char.isAlpha Char.isUpper Char.isLower Char.isDigit at h
  simp only [Bool.or_eq_true, Bool.and_eq_true, decide_eq_true_eq, ge_iff_le,
    UInt32.le_iff_toNat_le] at h
  rcases h with ((⟨-, h⟩ | ⟨-, h⟩) | ⟨-, h⟩) | rfl
  · exact Nat.lt_of_le_of_lt h (by decide)
  · exact Nat.lt_of_le_of_lt h (by decide)
  · exact Nat.lt_of_le_of_lt h (by decide)
  · decide

theorem utf8Size_eq_one (h : c.toNat < 0x80) : c.utf8Size = 1 := by
  have hval : c.val.toNat ≤ 127 := Nat.le_of_lt_succ h
  rw [Char.utf8Size, if_pos (UInt32.le_iff_toNat_le.2 hval)]

/-- All characters of the class have a single byte. -/
def OneByte (admits : Char → Bool) : Prop := ∀ c, admits c = true → c.utf8Size = 1

theorem oneByte_isNameChar : OneByte isNameChar := fun _ h =>
  utf8Size_eq_one (isNameChar_toNat_lt h)

theorem oneByte_isNameChar_or {mark : Char} (hmark : mark.utf8Size = 1) :
    OneByte fun c => isNameChar c || c = mark := by
  intro c h
  rcases Bool.or_eq_true_iff.1 h with h | h
  · exact oneByte_isNameChar c h
  · rw [of_decide_eq_true h, hmark]

theorem oneByte_isDottedChar : OneByte isDottedChar := oneByte_isNameChar_or rfl

theorem oneByte_isSimpleChar : OneByte isSimpleChar := oneByte_isNameChar_or rfl

theorem OneByte.byteLength_eq (h : OneByte admits) (hrun : ∀ c ∈ run, admits c = true) :
    run.byteLength = run.length := by
  induction run with
  | nil => rfl
  | cons c run ih =>
    rw [List.forall_mem_cons] at hrun
    rw [byteLength, h c hrun.1, ih hrun.2, List.length_cons, Nat.add_comm]

theorem byteLength_reverse (text : Text) : byteLength text.reverse = text.byteLength := by
  induction text with
  | nil => rfl
  | cons c text ih =>
    rw [List.reverse_cons, byteLength_append, ih, byteLength, byteLength, byteLength,
      Nat.add_zero, Nat.add_comm]

/-! ### Runs -/

/-- The text has a run of admitted characters between `before` and `after`, and neither neighbour of
the run is admitted. -/
structure IsRun (admits : Char → Bool) (text before run after : Text) : Prop where
  /-- Where the run stands. -/
  eq : text = before ++ run ++ after
  /-- Its characters are admitted. -/
  admitted : ∀ c ∈ run, admits c = true
  /-- The character before it is not. -/
  left : ∀ c ∈ before.getLast?, admits c = false
  /-- The character after it is not. -/
  right : ∀ c ∈ after.head?, admits c = false

/-- A text can be cut inside a run at any offset. -/
theorem exists_cut (h : OneByte admits) (hrun : ∀ c ∈ run, admits c = true)
    (hlo : before.byteLength ≤ offset) (hhi : offset ≤ before.byteLength + run.byteLength) :
    ∃ head tail : Text, run = head ++ tail ∧ (before ++ head).byteLength = offset := by
  have hlength := h.byteLength_eq hrun
  refine ⟨run.take (offset - before.byteLength), run.drop (offset - before.byteLength),
    (List.take_append_drop _ _).symm, ?_⟩
  have htake : ∀ c ∈ run.take (offset - before.byteLength), admits c = true :=
    fun c hc => hrun c (List.mem_of_mem_take hc)
  rw [byteLength_append, h.byteLength_eq htake, List.length_take]
  omega

/-- **The word under a cursor is the run that the cursor touches.** -/
theorem IsRun.runAt?_eq (h : IsRun admits text before run after) (hadmits : OneByte admits)
    (hne : run ≠ []) (hlo : before.byteLength ≤ offset)
    (hhi : offset ≤ before.byteLength + run.byteLength) :
    runAt? admits text offset = some ⟨before.byteLength, run⟩ := by
  obtain ⟨head, tail, rfl, rfl⟩ := exists_cut hadmits h.admitted hlo hhi
  have hadmitted := List.forall_mem_append.1 h.admitted
  have htext : text = (before ++ head) ++ (tail ++ after) := by
    rw [h.eq]
    simp only [List.append_assoc]
  -- one walk leads back to the start of the run, the other one on to its end
  have hleft : (before ++ head).reverse.takeWhile admits = head.reverse := by
    rw [List.reverse_append]
    refine takeWhile_append_stop (fun c hc => hadmitted.1 c (List.mem_reverse.1 hc)) ?_
    rw [List.head?_reverse]
    exact h.left
  have hright : (tail ++ after).takeWhile admits = tail :=
    takeWhile_append_stop hadmitted.2 h.right
  have hmin : min (before ++ head).byteLength text.byteLength = (before ++ head).byteLength := by
    rw [htext, byteLength_append _ (tail ++ after)]
    exact Nat.min_eq_left (Nat.le_add_right _ _)
  rw [runAt?, hmin, htext, splitAtByte_append]
  dsimp only
  rw [hleft, hright, List.reverse_reverse, byteLength_reverse, byteLength_append,
    Nat.add_sub_cancel,
    if_neg (by simpa using hne)]

theorem eq_append_of_splitAtByte {p : Text × Text} (h : splitAtByte text offset = some p) :
    text = p.1 ++ p.2 ∧ p.1.byteLength = offset := by
  fun_induction splitAtByte text offset generalizing p with
  | case1 text =>
    cases h
    exact ⟨rfl, rfl⟩
  | case2 offset => cases h
  | case3 c rest offset hle ih =>
    obtain ⟨⟨before, after⟩, hq, rfl⟩ := Option.map_eq_some_iff.1 h
    obtain ⟨hrest, hlength⟩ := ih hq
    refine ⟨congrArg (c :: ·) hrest, ?_⟩
    dsimp only at hlength ⊢
    rw [byteLength, hlength]
    omega
  | case4 c rest offset hle => cases h

/-- The word under a cursor, by the parts of the text before and after the cursor. -/
theorem runAt?_of_splitAtByte
    (h : text.splitAtByte (min offset text.byteLength) = some (before, after)) :
    runAt? admits text offset =
      if (before.rtakeWhile admits ++ after.takeWhile admits).isEmpty then none
      else some ⟨byteLength (before.rdropWhile admits),
        before.rtakeWhile admits ++ after.takeWhile admits⟩ := by
  have hstart : before.byteLength - byteLength (before.reverse.takeWhile admits) =
      byteLength (before.rdropWhile admits) := by
    have hsplit := congrArg byteLength
      (List.rdropWhile_append_rtakeWhile : before.rdropWhile admits ++ before.rtakeWhile admits = _)
    rw [byteLength_append, List.rtakeWhile, byteLength_reverse] at hsplit
    omega
  rw [runAt?, h]
  dsimp only
  rw [hstart, List.rtakeWhile]

theorem runAt?_append (admits : Char → Bool) (before after : Text) :
    runAt? admits (before ++ after) before.byteLength =
      if (before.rtakeWhile admits ++ after.takeWhile admits).isEmpty then none
      else some ⟨byteLength (before.rdropWhile admits),
        before.rtakeWhile admits ++ after.takeWhile admits⟩ := by
  refine runAt?_of_splitAtByte ?_
  rw [byteLength_append, Nat.min_eq_left (Nat.le_add_right _ _), splitAtByte_append]

/-- **The run around a part of a text** reaches as far as its neighbours are admitted. -/
theorem isRun_around (before after : Text) {inner : Text} (h : ∀ c ∈ inner, admits c = true) :
    IsRun admits (before ++ inner ++ after) (before.rdropWhile admits)
      (before.rtakeWhile admits ++ inner ++ after.takeWhile admits) (after.dropWhile admits) where
  eq := by
    have hbefore : before.rdropWhile admits ++ before.rtakeWhile admits = before :=
      List.rdropWhile_append_rtakeWhile
    rw [← List.append_assoc, ← List.append_assoc, hbefore,
      List.append_assoc _ (after.takeWhile admits), List.takeWhile_append_dropWhile]
  admitted := by
    intro c hc
    simp only [List.mem_append] at hc
    obtain (hc | hc) | hc := hc
    · exact List.mem_rtakeWhile_imp hc
    · exact h c hc
    · exact List.mem_takeWhile_imp hc
  left := by
    rw [List.rdropWhile, List.getLast?_reverse]
    exact head?_dropWhile_of_not admits _
  right := head?_dropWhile_of_not admits after

/-- The word under a cursor is a run. -/
theorem exists_isRun_of_runAt? {span : WordSpan} (h : runAt? admits text offset = some span) :
    span.text ≠ [] ∧ ∃ before after, IsRun admits text before span.text after ∧
      span.start = before.byteLength := by
  cases hsplit : text.splitAtByte (min offset text.byteLength) with
  | none =>
    rw [runAt?, hsplit] at h
    cases h
  | some parts =>
    obtain ⟨left, right⟩ := parts
    rw [runAt?_of_splitAtByte hsplit] at h
    split_ifs at h with hempty
    cases h
    obtain ⟨htext, -⟩ := eq_append_of_splitAtByte hsplit
    -- the run around the cursor itself, which is no part of the text
    have hrun : IsRun admits (left ++ [] ++ right) _ _ _ :=
      isRun_around left right (List.forall_mem_nil _)
    rw [List.append_nil, List.append_nil, ← htext] at hrun
    exact ⟨by simpa using hempty, _, _, hrun, rfl⟩

/-- The character right before a byte offset. -/
def charBefore? (text : Text) (offset : Nat) : Option Char :=
  (text.splitAtByte offset).bind fun (before, _) => before.getLast?

/-- The character right after a byte offset. -/
def charAfter? (text : Text) (offset : Nat) : Option Char :=
  (text.splitAtByte offset).bind fun (_, after) => after.head?

theorem charBefore?_append (before after : Text) :
    charBefore? (before ++ after) before.byteLength = before.getLast? := by
  rw [charBefore?, splitAtByte_append, Option.bind_some]

theorem charAfter?_append (before after : Text) :
    charAfter? (before ++ after) before.byteLength = after.head? := by
  rw [charAfter?, splitAtByte_append, Option.bind_some]

/-! ### Plain words -/

theorem isSimpleChar_of_isNameChar (h : isNameChar c = true) : isSimpleChar c = true := by
  rw [isSimpleChar, h, Bool.true_or]

/-- A run that does not start with an `@` is a plain word. -/
theorem simpleWord?_of_runAt? {span : WordSpan} (h : runAt? isSimpleChar text offset = some span)
    (hhead : span.text.head? ≠ some '@') : text.simpleWord? offset = some span := by
  rw [simpleWord?, h]
  split
  · next heq => cases heq
  · next heq =>
    cases heq
    exact absurd rfl hhead
  · next heq =>
    cases heq
    rfl

/-- An `@` at the start of a run is left out of the plain word. -/
theorem simpleWord?_of_runAt?_cons {start : Nat} {rest : Text}
    (h : runAt? isSimpleChar text offset = some ⟨start, '@' :: rest⟩) :
    text.simpleWord? offset = if rest.isEmpty then none else some ⟨start + 1, rest⟩ := by
  rw [simpleWord?, h]
  rfl

/-- **A name that follows no plain word is found from any place in it.** -/
theorem IsRun.simpleWord?_eq (h : IsRun isSimpleChar text before run after) (hne : run ≠ [])
    (hhead : run.head? ≠ some '@') (hlo : before.byteLength ≤ offset)
    (hhi : offset ≤ before.byteLength + run.byteLength) :
    text.simpleWord? offset = some ⟨before.byteLength, run⟩ :=
  simpleWord?_of_runAt? (h.runAt?_eq oneByte_isSimpleChar hne hlo hhi) hhead

/-- **A name after an `@` is found from any place in it**, and from both sides of the `@`. -/
theorem IsRun.simpleWord?_eq_tail (h : IsRun isSimpleChar text before ('@' :: run) after)
    (hne : run ≠ []) (hlo : before.byteLength ≤ offset)
    (hhi : offset ≤ before.byteLength + byteLength ('@' :: run)) :
    text.simpleWord? offset = some ⟨before.byteLength + 1, run⟩ := by
  have hrun := h.runAt?_eq oneByte_isSimpleChar (List.cons_ne_nil _ _) hlo hhi
  rw [simpleWord?_of_runAt?_cons hrun, if_neg (by simpa using hne)]

/-! ### Members -/

/-- The text has `owner.member` between `before` and `after`.  It is not part of a longer name, and
nothing of a dotted word stands before it. -/
structure MemberAt (text before owner member after : Text) : Prop where
  /-- Where it stands. -/
  eq : text = before ++ (owner ++ '.' :: member) ++ after
  /-- The owner is a name. -/
  owner : owner ≠ [] ∧ ∀ c ∈ owner, isNameChar c = true
  /-- The member is a name. -/
  member : member ≠ [] ∧ ∀ c ∈ member, isNameChar c = true
  /-- The character before it does not belong to a dotted word. -/
  left : ∀ c ∈ before.getLast?, isDottedChar c = false
  /-- The character after it does not belong to a name. -/
  right : ∀ c ∈ after.head?, isNameChar c = false

theorem not_isNameChar_dot : isNameChar '.' = false := by decide

namespace MemberAt

variable {owner member : Text}

/-- The bytes of `owner.member`. -/
def bytes (before owner member : Text) : ByteRange :=
  ⟨before.byteLength, before.byteLength + byteLength (owner ++ '.' :: member)⟩

theorem slice?_bytes (h : MemberAt text before owner member after) :
    text.slice? (bytes before owner member) = some (owner ++ '.' :: member) := by
  rw [h.eq]
  exact slice?_append before (owner ++ '.' :: member) after

end MemberAt

end Text

end OpcodeLens
