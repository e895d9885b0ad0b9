import OpcodeLens.Proofs.Editor.Highlight
import OpcodeLens.Proofs.Token.Lines

/-!
# Highlighting line by line

What a token is depends on the two tokens before it and on the one after it.  A line ends in a token
that is neither a dot nor a name, so nothing is looked up across it, with one exception: a name
after a dot needs a second token before it to count as a member.  After a line feed there is one,
and a name whose line starts with the dot is a member of nothing; at the start of a script there is
none, and the same name is looked up as if there were no dot.

* `Highlight.classified_shift` : classification does not look at line numbers.
* `Highlight.exists_classified_append` : a script is classified up to the end of a line, and from
  there on.
* `Highlight.startsOrphaned` : the exception; `Highlight.classified_after_newLine` says that nothing
  else depends on what stands before a line.
* `Highlight.marks_append_newline` : the highlighted tokens of two scripts with a line feed between
  them.
* `Highlight.decode_deltas_append_newline` : **when highlighting is local to a line.**
-/

namespace OpcodeLens

namespace Highlight

variable {cat : Catalogue} {older newer next : Option Token} {t mark : Token}

/-! ### Classification of parts -/

/-- A name after a dot that is not the first token is a member, or nothing. -/
theorem classify_member {owner : Token} (hname : t.kind = .identifier)
    (hdot : isDot newer = true) :
    classify cat (some owner) newer t next =
      if owner.kind = .identifier then classifyMember cat owner.text t.text else none := by
  simp only [classify, hname, hdot]

/-- Any other name is looked up on its own. -/
theorem classify_plain (hname : t.kind = .identifier) (h : older = none ∨ isDot newer = false) :
    classify cat older newer t next = classifyName cat t.text (isDot next) := by
  rcases h with rfl | h
  · simp only [classify, hname]
  · cases older <;> simp only [classify, hname, h]

/-- A token that is not a name is what it is wherever it stands. -/
theorem classify_other {older' newer' next' : Option Token} (h : t.kind ≠ .identifier) :
    classify cat older newer t next = classify cat older' newer' t next' := by
  unfold classify
  split
  · exact absurd ‹_› h
  all_goals rfl

theorem isDot_map_shift (t : Option Token) (n : Nat) : isDot (t.map (.shift n)) = isDot t := by
  cases t <;> rfl

theorem classify_shift (cat : Catalogue) (older newer : Option Token) (t : Token)
    (next : Option Token) (n : Nat) :
    classify cat (older.map (.shift n)) (newer.map (.shift n)) (t.shift n) (next.map (.shift n)) =
      classify cat older newer t next := by
  by_cases hname : t.kind = .identifier
  · have hshifted : (t.shift n).kind = .identifier := hname
    cases older with
    | none =>
      rw [Option.map_none, classify_plain hshifted (.inl rfl), classify_plain hname (.inl rfl),
        isDot_map_shift]
      rfl
    | some owner =>
      have hnewer := isDot_map_shift newer n
      cases hdot : isDot newer with
      | true =>
        rw [Option.map_some, classify_member hshifted (hnewer.trans hdot),
          classify_member hname hdot]
        rfl
      | false =>
        rw [classify_plain hshifted (.inr (hnewer.trans hdot)), classify_plain hname (.inr hdot),
          isDot_map_shift]
        rfl
  · exact classify_other (t := t.shift n) hname

/-- **Classification does not look at line numbers.** -/
theorem classified_shift (cat : Catalogue) (older newer : Option Token) (tokens : List Token)
    (n : Nat) :
    classified cat (older.map (.shift n)) (newer.map (.shift n)) (tokens.map (.shift n)) =
      (classified cat older newer tokens).map fun (t, c) => (t.shift n, c) := by
  induction tokens generalizing older newer with
  | nil => rfl
  | cons t rest ih =>
    have htail := ih newer (some t)
    rw [Option.map_some] at htail
    rw [List.map_cons, classified, classified, htail, List.head?_map, classify_shift]
    cases classify cat older newer t rest.head? <;> rfl

/-- If there is no dot right before a token, it does not matter what stands before it. -/
theorem classify_of_not_isDot (h : isDot newer = false) :
    classify cat older newer t next = classify cat none none t next := by
  by_cases hname : t.kind = .identifier
  · rw [classify_plain hname (.inr h), classify_plain hname (.inl rfl)]
  · exact classify_other hname

theorem classify_of_not_isPiece (h : ¬ Token.IsPiece t.kind) :
    classify cat older newer t next = none := by
  cases hclassify : classify cat older newer t next with
  | none => rfl
  | some c => exact absurd (isPiece_of_classify hclassify) h

/-- **What stands before the end of a line is classified without what comes after it.** -/
theorem exists_classified_append (cat : Catalogue) (older newer : Option Token)
    (tokens : List Token) (hmark : mark.kind = .newLine) :
    ∃ before, ∀ rest, classified cat older newer (tokens ++ mark :: rest) =
      classified cat older newer (tokens ++ [mark]) ++ classified cat before (some mark) rest := by
  induction tokens generalizing older newer with
  | nil =>
    have hpiece : ¬ Token.IsPiece mark.kind := fun h => h.1 hmark
    refine ⟨newer, fun rest => ?_⟩
    simp only [List.nil_append, classified, classify_of_not_isPiece hpiece]
  | cons t tokens ih =>
    obtain ⟨before, hbefore⟩ := ih newer (some t)
    refine ⟨before, fun rest => ?_⟩
    have hnext : (tokens ++ mark :: rest).head? = (tokens ++ [mark]).head? := by
      cases tokens <;> rfl
    rw [List.cons_append, List.cons_append, classified, classified, hbefore, hnext]
    cases classify cat older newer t (tokens ++ [mark]).head? <;> rfl

/-! ### Names after a leading dot -/

/-- Do the tokens start with a dot and a name that would be highlighted without the dot? -/
def startsOrphaned (cat : Catalogue) : List Token → Bool
  | dot :: name :: rest =>
    dot.kind = .dot && name.kind = .identifier &&
      (classifyName cat name.text (isDot rest.head?)).isSome
  | _ => false

theorem startsOrphaned_shift (cat : Catalogue) (tokens : List Token) (n : Nat) :
    startsOrphaned cat (tokens.map (.shift n)) = startsOrphaned cat tokens := by
  match tokens with
  | [] => rfl
  | [_] => rfl
  | [_, _] => rfl
  | _ :: _ :: _ :: _ => rfl

/-- **The end of a line only takes the mark off a name after a leading dot.** -/
theorem classified_after_newLine (cat : Catalogue) (before : Option Token) (tokens : List Token)
    (hmark : mark.kind = .newLine) :
    classified cat before (some mark) tokens =
      (classified cat none none tokens).drop (if startsOrphaned cat tokens then 1 else 0) := by
  have hdot : isDot (some mark) = false := by simp [isDot, hmark]
  match tokens with
  | [] => rfl
  | [t] =>
    rw [classified, classified, classify_of_not_isDot hdot]
    rfl
  | t :: u :: rest =>
    -- the first token has no dot before it, and the third one has both its neighbours in the list
    rw [classified, classified, classify_of_not_isDot hdot, classified, classified]
    by_cases horphan : t.kind = .dot ∧ u.kind = .identifier
    · obtain ⟨ht, hu⟩ := horphan
      have hisDot : isDot (some t) = true := by simp [isDot, ht]
      have hfirst : classify cat none none t (u :: rest).head? = none := by simp [classify, ht]
      rw [hfirst, classify_member hu hisDot, classify_plain hu (.inl rfl)]
      simp only [startsOrphaned, ht, hu, hmark, reduceCtorEq, if_false, decide_true, Bool.true_and]
      cases classifyName cat u.text (isDot rest.head?) <;> rfl
    · have hsecond : classify cat (some mark) (some t) u rest.head? =
          classify cat none (some t) u rest.head? := by
        by_cases hu : u.kind = .identifier
        · have ht : isDot (some t) = false := by
            simpa [isDot] using fun ht => horphan ⟨ht, hu⟩
          rw [classify_of_not_isDot ht, classify_of_not_isDot ht]
        · exact classify_other hu
      have hstart : startsOrphaned cat (t :: u :: rest) = false := by
        rw [startsOrphaned, Bool.and_eq_false_iff]
        left
        simpa using horphan
      rw [hsecond, hstart]
      rfl

/-! ### Two scripts -/

/-- The number of highlighted tokens that a script loses when it is put after a line feed. -/
def lostMarks (cat : Catalogue) (text : Text) : Nat :=
  if startsOrphaned cat (Token.scan text) then 1 else 0

theorem classified_scan_append_newline (cat : Catalogue) (a b : Text) :
    classified cat none none (Token.scan (a ++ '\n' :: b)) =
      classified cat none none (Token.scan a) ++
        ((classified cat none none (Token.scan b)).drop (lostMarks cat b)).map
          fun (t, c) => (t.shift a.lines.length, c) := by
  obtain ⟨init, mark, hrows, hmark⟩ := Token.exists_rows_eq_concat 1 a.lines_ne_nil
  obtain ⟨before, hclassified⟩ := exists_classified_append cat none none init hmark
  have ha : classified cat none none (Token.scan a) =
      classified cat none none (init ++ [mark]) := by
    rw [Token.scan_eq_rows, hrows, List.append_assoc, List.singleton_append, hclassified]
    exact List.append_nil _
  have hshift := classified_shift cat none none (Token.scan b) a.lines.length
  rw [Option.map_none] at hshift
  rw [Token.scan_append_newline, hrows, List.append_assoc, List.singleton_append, hclassified, ha,
    classified_after_newLine cat before _ hmark, startsOrphaned_shift, hshift, List.map_drop,
    lostMarks]

/-- A highlighted token `n` lines further down. -/
def Mark.shift (n : Nat) (m : Mark) : Mark :=
  { m with start := ⟨m.start.line + n, m.start.character⟩ }

theorem range_append_left {lines : List Text} (h : t.line - 1 < lines.length)
    (rest : List Text) : t.range (lines ++ rest) = t.range lines := by
  rw [Token.range, Token.range, Token.unitColumn, Token.unitColumn, List.getElem?_append_left h]

theorem ofRange_shift (h : 1 ≤ t.line) (lines rest : List Text) (info : Class) :
    Mark.ofRange ((t.shift lines.length).range (lines ++ rest)) info =
      (Mark.ofRange (t.range rest) info).shift lines.length := by
  have hline : (t.shift lines.length).line - 1 = t.line - 1 + lines.length := by
    rw [Token.shift]
    dsimp only
    omega
  have hcolumn : Token.unitColumn (lines ++ rest) (t.line - 1 + lines.length) t.col =
      Token.unitColumn rest (t.line - 1) t.col := by
    rw [Token.unitColumn, List.getElem?_append_right (Nat.le_add_left _ _), Nat.add_sub_cancel,
      Token.unitColumn]
  have hcol : (t.shift lines.length).col = t.col := rfl
  rw [Token.range, hline, hcol, hcolumn]
  rfl

/-- **The highlighted tokens of two scripts with a line feed between them.** -/
theorem marks_append_newline (cat : Catalogue) (a b : Text) :
    marks cat (a ++ '\n' :: b) =
      marks cat a ++ ((marks cat b).drop (lostMarks cat b)).map (Mark.shift a.lines.length) := by
  have hmarks : ∀ text, marks cat text = (classified cat none none (Token.scan text)).map
      fun (t, c) => Mark.ofRange (t.range text.lines) c := fun text => rfl
  rw [hmarks, hmarks, hmarks, classified_scan_append_newline, List.map_append,
    Text.lines_append_newline]
  congr 1
  · refine List.map_congr_left fun ⟨t, c⟩ hx => ?_
    obtain ⟨_, _, _, h⟩ := exists_around_of_mem_classified hx
    obtain ⟨tail, hline⟩ := h.line
    dsimp only
    rw [range_append_left (List.getElem?_eq_some_iff.1 hline).1]
  · rw [← List.map_drop, List.map_map, List.map_map]
    refine List.map_congr_left fun x hx => ?_
    obtain ⟨_, _, _, h⟩ := exists_around_of_mem_classified (List.mem_of_mem_drop hx)
    exact ofRange_shift h.proper.2 a.lines b.lines x.2

/-- A lost token was there. -/
theorem lostMarks_le (cat : Catalogue) (text : Text) :
    lostMarks cat text ≤ (marks cat text).length := by
  rw [lostMarks]
  split_ifs with horphan
  · rw [marks, List.length_map]
    match hscan : Token.scan text with
    | [] => simp [hscan, startsOrphaned] at horphan
    | [_] => simp [hscan, startsOrphaned] at horphan
    | dot :: name :: rest =>
      rw [hscan] at horphan
      simp only [startsOrphaned, Bool.and_eq_true, decide_eq_true_iff] at horphan
      obtain ⟨⟨hdot, hname⟩, hsome⟩ := horphan
      obtain ⟨c, hc⟩ := Option.isSome_iff_exists.1 hsome
      have hfirst : classify cat none none dot (name :: rest).head? = none := by
        simp [classify, hdot]
      have hsecond : classify cat none (some dot) name rest.head? = some c := by
        rw [classify_plain hname (.inl rfl)]
        exact hc
      rw [classified, hfirst, classified, hsecond]
      exact Nat.succ_le_succ (Nat.zero_le _)
  · exact Nat.zero_le _

/-- **When highlighting is local to a line.**  The highlighted tokens of two scripts with a line
feed between them are those of the first script, then those of the second one further down, except
for one: a name at the start of the second script that follows a leading dot is not among them.  So
the tokens of both scripts are all there, and no others, if and only if the second script does not
start with a dot and a name that is highlighted there. -/
theorem decode_deltas_append_newline (cat : Catalogue) (a b : Text) :
    decode (deltas cat (a ++ '\n' :: b)) =
      decode (deltas cat a) ++
        ((decode (deltas cat b)).drop (lostMarks cat b)).map (Mark.shift a.lines.length) ∧
    (decode (deltas cat (a ++ '\n' :: b)) =
      decode (deltas cat a) ++ (decode (deltas cat b)).map (Mark.shift a.lines.length) ↔
        startsOrphaned cat (Token.scan b) = false) := by
  simp only [decode_deltas]
  refine ⟨marks_append_newline cat a b, ?_⟩
  rw [marks_append_newline, List.append_cancel_left_eq]
  have hlost := lostMarks_le cat b
  constructor
  · intro heq
    have hlength := congrArg List.length heq
    rw [List.length_map, List.length_map, List.length_drop] at hlength
    have hzero : lostMarks cat b = 0 := by omega
    rw [lostMarks] at hzero
    simpa using hzero
  · intro h
    rw [lostMarks, h]
    rfl

/-- A name after a leading dot is highlighted at the start of a script, but not on its second
line. -/
theorem orphan_after_newline :
    decode (deltas clock ([] ++ '\n' :: ".wait".toList)) ≠
      decode (deltas clock []) ++
        (decode (deltas clock ".wait".toList)).map (Mark.shift (Text.lines []).length) := by
  decide +kernel

end Highlight

end OpcodeLens
