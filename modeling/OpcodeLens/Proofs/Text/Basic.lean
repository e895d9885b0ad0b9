import OpcodeLens.Text.Blank
import Mathlib.Data.List.DropRight
import Mathlib.Data.List.TakeWhile
import Mathlib.Tactic.Common

/-!
# Lines, blanks and words

What the recursions on text say about whole texts.

* `Text.splitLines_eq_splitOn` : lines are the pieces between line feeds.
* `Text.trim_eq_self_iff` : a text is left alone by `Text.trim` if no blank stands at either end.
* `Text.exists_eq_append_trim`, `Text.trim_trim` : trimming takes off blanks, and all of them.
* `Text.isBlank_of_isWord` : no blank is part of a word.
* `Text.HasWord` : a text has another one in it as a whole word.
* `Text.dropHead?_eq_some_iff` : what follows the head of a text.
-/

namespace OpcodeLens

namespace Text

variable {text : Text} {c : Char}

/-! ### Lines -/

theorem consLine_eq_modifyHead (c : Char) {lines : List Text} (h : lines ≠ []) :
    consLine c lines = lines.modifyHead (c :: ·) := by
  cases lines with
  | nil => exact absurd rfl h
  | cons line rest => rfl

/-- **Lines are the pieces between line feeds.** -/
theorem splitLines_eq_splitOn (text : Text) : splitLines text = text.splitOn '\n' := by
  induction text with
  | nil => rfl
  | cons c rest ih =>
    have hne := List.splitOn_ne_nil '\n' rest
    rw [splitLines, ih, List.splitOn_cons_eq_if_modifyHead, consLine_eq_modifyHead c hne]
    simp only [beq_iff_eq]

theorem lines_eq_splitOn (text : Text) :
    text.lines = (text.splitOn '\n').map (dropLastIf '\r') := by
  rw [lines, splitLines_eq_splitOn]

theorem splitLines_append {line : Text} (h : '\n' ∉ line) (rest : Text) :
    splitLines (line ++ '\n' :: rest) = line :: splitLines rest := by
  rw [splitLines_eq_splitOn, splitLines_eq_splitOn, List.splitOn_append_cons_self,
    List.splitOn_eq_singleton h, List.singleton_append]

theorem splitLines_of_not_mem (h : '\n' ∉ text) : splitLines text = [text] := by
  rw [splitLines_eq_splitOn, List.splitOn_eq_singleton h]

/-- Lines that are joined by line feeds are found again. -/
theorem splitLines_join {lines : List Text} (hne : lines ≠ []) (h : ∀ line ∈ lines, '\n' ∉ line) :
    splitLines (join ['\n'] lines) = lines := by
  fun_induction join ['\n'] lines with
  | case1 => exact absurd rfl hne
  | case2 line => exact splitLines_of_not_mem (h line List.mem_cons_self)
  | case3 line next rest ih =>
    obtain ⟨hline, hrest⟩ := List.forall_mem_cons.1 h
    rw [List.append_assoc, List.singleton_append, splitLines_append hline,
      ih (List.cons_ne_nil _ _) hrest]

/-- No line has a line feed in it. -/
theorem newline_not_mem_of_mem_splitLines {line : Text} (h : line ∈ splitLines text) :
    '\n' ∉ line := by
  induction text generalizing line with
  | nil =>
    rw [List.mem_singleton.1 h]
    exact List.not_mem_nil
  | cons c rest ih =>
    rw [splitLines] at h
    split_ifs at h with hc
    · rcases List.mem_cons.1 h with rfl | h
      · exact List.not_mem_nil
      · exact ih h
    · -- the character goes in front of the first line of the rest
      cases hlines : splitLines rest with
      | nil =>
        rw [hlines, consLine, List.mem_singleton] at h
        simp [h, Ne.symm hc]
      | cons first others =>
        rw [hlines, consLine] at h
        rw [hlines] at ih
        rcases List.mem_cons.1 h with rfl | h
        · exact not_or.2 ⟨Ne.symm hc, ih List.mem_cons_self⟩ ∘ List.mem_cons.1
        · exact ih (List.mem_cons_of_mem first h)

theorem splitFirst?_eq_none {mark : Char} (h : mark ∉ text) : splitFirst? mark text = none := by
  induction text with
  | nil => rfl
  | cons c text ih =>
    obtain ⟨hc, htext⟩ := not_or.1 (mt List.mem_cons.2 h)
    rw [splitFirst?, if_neg (Ne.symm hc), ih htext, Option.map_none]

theorem splitFirst?_append {mark : Char} {before : Text} (h : mark ∉ before) (after : Text) :
    splitFirst? mark (before ++ mark :: after) = some (before, after) := by
  induction before with
  | nil => rw [List.nil_append, splitFirst?, if_pos rfl]
  | cons c before ih =>
    obtain ⟨hc, hbefore⟩ := not_or.1 (mt List.mem_cons.2 h)
    rw [List.cons_append, splitFirst?, if_neg (Ne.symm hc), ih hbefore, Option.map_some]

theorem eq_append_of_splitFirst? {mark : Char} {p : Text × Text}
    (h : splitFirst? mark text = some p) : text = p.1 ++ mark :: p.2 := by
  induction text generalizing p with
  | nil => cases h
  | cons c text ih =>
    rw [splitFirst?] at h
    split_ifs at h with hc
    · cases h
      rw [hc, List.nil_append]
    · obtain ⟨q, hq, rfl⟩ := Option.map_eq_some_iff.1 h
      rw [ih hq, List.cons_append]

/-! ### Heads -/

theorem takeWhile_append_stop {admits : Char → Bool} {run after : Text}
    (hrun : ∀ c ∈ run, admits c = true)
    (hafter : ∀ c ∈ after.head?, admits c = false) : (run ++ after).takeWhile admits = run := by
  rw [List.takeWhile_append_of_pos hrun]
  cases after with
  | nil => rw [List.takeWhile_nil, List.append_nil]
  | cons d after =>
    rw [List.takeWhile_cons_of_neg (by simp [hafter d rfl]), List.append_nil]

theorem dropWhile_append_stop {admits : Char → Bool} {run after : Text}
    (hrun : ∀ c ∈ run, admits c = true)
    (hafter : ∀ c ∈ after.head?, admits c = false) : (run ++ after).dropWhile admits = after := by
  rw [List.dropWhile_append_of_pos hrun]
  cases after with
  | nil => rfl
  | cons d after => rw [List.dropWhile_cons_of_neg (by simp [hafter d rfl])]

theorem head?_dropWhile_of_not (admits : Char → Bool) (text : Text) :
    ∀ c ∈ (text.dropWhile admits).head?, admits c = false := by
  intro c hc
  have h := List.head?_dropWhile_not admits text
  rw [Option.mem_def.1 hc] at h
  exact h

theorem dropHead?_eq_some_iff {head rest : Text} :
    dropHead? head text = some rest ↔ text = head ++ rest := by
  induction head generalizing text with
  | nil => simp [dropHead?]
  | cons h head ih =>
    cases text with
    | nil => simp [dropHead?]
    | cons c tail =>
      rw [dropHead?]
      split_ifs with hc
      · rw [ih, hc, List.cons_append, List.cons_inj_right]
      · simp [Ne.symm hc]

/-- A head ends before a character that it does not have. -/
theorem dropHead?_append_cons {head : Text} (h : c ∉ head) (rest : Text) :
    dropHead? head (text ++ c :: rest) = (dropHead? head text).map (· ++ c :: rest) := by
  induction head generalizing text with
  | nil => rfl
  | cons a head ih =>
    obtain ⟨hca, hhead⟩ := not_or.1 (mt List.mem_cons.2 h)
    cases text with
    | nil => exact if_neg (Ne.symm hca)
    | cons d text =>
      rw [List.cons_append, dropHead?, dropHead?]
      split_ifs
      · exact ih hhead
      · rfl

/-! ### Blanks -/

theorem trimStart_eq_self_iff : trimStart text = text ↔ ∀ c ∈ text.head?, isBlank c = false := by
  cases text with
  | nil => simp [trimStart]
  | cons c rest => simp [trimStart, List.dropWhile_eq_self_iff]

theorem trimEnd_eq_rdropWhile (text : Text) : trimEnd text = text.rdropWhile isBlank := rfl

theorem trimEnd_eq_self_iff : trimEnd text = text ↔ ∀ c ∈ text.getLast?, isBlank c = false := by
  rw [trimEnd_eq_rdropWhile, List.rdropWhile_eq_self_iff]
  cases text using List.reverseRecOn with
  | nil => simp
  | append_singleton rest c => simp

/-- **Trimming leaves a text alone if no blank stands at either end.** -/
theorem trim_eq_self_iff : trim text = text ↔
    (∀ c ∈ text.head?, isBlank c = false) ∧ ∀ c ∈ text.getLast?, isBlank c = false := by
  rw [← trimStart_eq_self_iff, ← trimEnd_eq_self_iff]
  constructor
  · intro h
    have hsuffix : trimStart text <:+ text := List.dropWhile_suffix isBlank
    have hprefix : trimEnd (trimStart text) <+: trimStart text := List.rdropWhile_prefix isBlank _
    -- neither end can have lost anything
    have hstart : trimStart text = text := by
      refine hsuffix.eq_of_length (Nat.le_antisymm hsuffix.length_le ?_)
      calc text.length = (trim text).length := by rw [h]
        _ ≤ (trimStart text).length := hprefix.length_le
    exact ⟨hstart, by rwa [trim, hstart] at h⟩
  · rintro ⟨hstart, hend⟩
    rw [trim, hstart, hend]

theorem trimEnd_subset (text : Text) : trimEnd text ⊆ text :=
  (List.rdropWhile_prefix isBlank text).subset

theorem trim_subset (text : Text) : trim text ⊆ text :=
  List.Subset.trans (trimEnd_subset _) (List.dropWhile_subset isBlank)

/-- What trimming takes off are blanks on both sides. -/
theorem exists_eq_append_trim (text : Text) :
    ∃ tail, text = text.takeWhile isBlank ++ trim text ++ tail ∧ ∀ c ∈ tail, isBlank c = true := by
  refine ⟨(trimStart text).rtakeWhile isBlank, ?_, fun c hc => List.mem_rtakeWhile_imp hc⟩
  rw [List.append_assoc, trim, trimEnd_eq_rdropWhile, List.rdropWhile_append_rtakeWhile, trimStart,
    List.takeWhile_append_dropWhile]

theorem trim_eq_nil_iff : trim text = [] ↔ ∀ c ∈ text, isBlank c = true := by
  constructor
  · intro hnil c hc
    obtain ⟨tail, htext, htail⟩ := exists_eq_append_trim text
    rw [htext, hnil, List.append_nil] at hc
    rcases List.mem_append.1 hc with hc | hc
    · exact List.mem_takeWhile_imp hc
    · exact htail c hc
  · intro hblank
    rw [trim, trimStart, List.dropWhile_eq_nil_iff.2 hblank]
    rfl

/-- A trimmed text has no blanks around it. -/
theorem trim_trim (text : Text) : trim (trim text) = trim text := by
  rw [trim_eq_self_iff]
  constructor
  · intro c hc
    -- the first character of what is left is the first one that is no blank
    obtain ⟨tail, htail⟩ : trim text <+: trimStart text := List.rdropWhile_prefix isBlank _
    refine head?_dropWhile_of_not isBlank text c ?_
    change c ∈ (trimStart text).head?
    rw [← htail, List.head?_append, Option.mem_def.1 hc]
    rfl
  · rw [← trimEnd_eq_self_iff, trim, trimEnd_eq_rdropWhile, trimEnd_eq_rdropWhile,
      List.rdropWhile_idempotent]

/-- Blanks around a text that has none around it are all that is taken off. -/
theorem trim_padded {left right : Text} (hleft : ∀ c ∈ left, isBlank c = true)
    (hright : ∀ c ∈ right, isBlank c = true) (hne : text ≠ []) (htrim : trim text = text) :
    trim (left ++ (text ++ right)) = text := by
  obtain ⟨hstart, hend⟩ := trim_eq_self_iff.1 htrim
  have hkeep : trimStart (text ++ right) = text ++ right := by
    rwa [trimStart_eq_self_iff, List.head?_append_of_ne_nil _ hne]
  have hright' : ∀ c ∈ right.reverse, isBlank c = true :=
    fun c hc => hright c (List.mem_reverse.1 hc)
  calc trim (left ++ (text ++ right)) = trimEnd (trimStart (text ++ right)) := by
        rw [trim, trimStart, List.dropWhile_append_of_pos hleft, trimStart]
    _ = trimEnd text := by
        rw [hkeep, trimEnd, List.reverse_append, List.dropWhile_append_of_pos hright', trimEnd]
    _ = text := trimEnd_eq_self_iff.2 hend

theorem trimEnd_concat (h : isBlank c = true) : trimEnd (text ++ [c]) = trimEnd text := by
  rw [trimEnd_eq_rdropWhile, List.rdropWhile_concat_pos _ _ _ h, trimEnd_eq_rdropWhile]

theorem trim_cons (h : isBlank c = true) : trim (c :: text) = trim text := by
  rw [trim, trimStart, List.dropWhile_cons_of_pos h, trim, trimStart]

/-! ### Words -/

theorem Table.covers_iff {ranges : List (Nat × Nat)} {n : Nat} :
    Table.covers ranges n = true ↔ ∃ r ∈ ranges, r.1 ≤ n ∧ n ≤ r.2 := by
  simp [Table.covers]

/-- No range of one table meets a range of the other. -/
theorem Table.disjoint_word_blank :
    ∀ r ∈ Table.word, ∀ s ∈ Table.blank, r.2 < s.1 ∨ s.2 < r.1 := by
  decide +kernel

theorem ascii_disjoint_word_blank : ∀ n < 0x80,
    ((Char.ofNat n).isAlphanum || Char.ofNat n = '_') = true →
      (Char.ofNat n = ' ' || (9 ≤ n && n ≤ 13)) = false := by
  decide

/-- **No blank is part of a word.** -/
theorem isBlank_of_isWord (h : isWord c = true) : isBlank c = false := by
  unfold isWord at h
  unfold isBlank
  split_ifs at h ⊢ with hascii
  · have hdisjoint := ascii_disjoint_word_blank c.toNat hascii
    rw [Char.ofNat_toNat] at hdisjoint
    exact hdisjoint h
  · rw [← Bool.not_eq_true, Table.covers_iff]
    rintro ⟨s, hs, hsc⟩
    obtain ⟨r, hr, hrc⟩ := Table.covers_iff.1 h
    have := Table.disjoint_word_blank r hr s hs
    omega

/-- Does the text end in a word character?  An empty text does so if `inWord` says that one stands
right before it. -/
def endsInWord (inWord : Bool) (text : Text) : Bool := (text.getLast?.map isWord).getD inWord

/-- The text, which follows a word character or not, has `word` in it as a whole word: there is no
word character right before or after it. -/
def HasWordAfter (inWord : Bool) (word text : Text) : Prop :=
  ∃ before after, text = before ++ word ++ after ∧ endsInWord inWord before = false ∧
    after.head?.any isWord = false

/-- The text has `word` in it as a whole word. -/
def HasWord (word text : Text) : Prop := HasWordAfter false word text

theorem endsInWord_cons (inWord : Bool) (c : Char) (text : Text) :
    endsInWord inWord (c :: text) = endsInWord (isWord c) text := by
  cases text using List.reverseRecOn with
  | nil => rfl
  | append_singleton rest d =>
    rw [endsInWord, endsInWord, ← List.cons_append, List.getLast?_concat, List.getLast?_concat]
    rfl

theorem endsInWord_append (inWord : Bool) (before after : Text) :
    endsInWord inWord (before ++ after) = endsInWord (endsInWord inWord before) after := by
  induction before generalizing inWord with
  | nil => rfl
  | cons c before ih => rw [List.cons_append, endsInWord_cons, endsInWord_cons, ih]

theorem endsInWord_of_ne_nil (inWord : Bool) (hne : text ≠ [])
    (hword : ∀ c ∈ text, isWord c = true) : endsInWord inWord text = true := by
  obtain ⟨init, c, rfl⟩ := (List.eq_nil_or_concat text).resolve_left hne
  rw [endsInWord, List.concat_eq_append, List.getLast?_concat]
  exact hword c (by simp)

end Text

end OpcodeLens
