import OpcodeLens.Proofs.Enumeration.Headers

/-!
# Open headers

A source is refused for the first header that stands open: it is outside all blocks, and no more
than blanks stand between it and the start of its line or the end of a block.  The search looks for
such headers before each block that it finds, and once more after the last one.

* `Enumeration.openHeader?_eq_some` : the check of a stretch of text finds the first header in it,
  and counts the line feeds before it.
* `Enumeration.openHeader?_gap_eq_none` : **no header stands open before a block**: a closing word
  follows it, so it would be a block itself.
* `Enumeration.exists_last_check` : only the check after the last block can fail.
* `Enumeration.OpenHeader.stop_le`, `Enumeration.OpenHeader.no_closing_word` : an open header stands
  after all blocks, and no closing word follows it.
* `Enumeration.parse_error_first_open` : **a source is refused for its first open header**, and its
  line is the one that is reported.
-/

namespace OpcodeLens

namespace Enumeration

variable {inWord fresh : Bool} {line start : Nat} {text before name rest gap after : Text}
  {block : Block} {header : Unterminated}

/-! ### The header that is seen -/

theorem lineFeeds_append (text rest : Text) :
    lineFeeds (text ++ rest) = lineFeeds text + lineFeeds rest := List.count_append

theorem openHeader?_cons {c : Char} (h : (if fresh then header? (c :: text) else none) = none) :
    openHeader? fresh line (c :: text) =
      openHeader? (c = '\n' || fresh && Text.isBlank c) (line + lineFeeds [c]) text := by
  rw [openHeader?, h]
  by_cases hc : c = '\n'
  · simp [hc, lineFeeds]
  · simp [hc, lineFeeds]

/-- **The first header of a text that starts a line is seen**, on its line. -/
theorem openHeader?_eq_some (h : openHeader? fresh line text = some header) :
    ∃ before tail rest, text = before ++ tail ∧ IsHeader tail header.name rest ∧
      freshAfter fresh before = true ∧ header.line = line + lineFeeds before ∧
      ∀ before' tail' name' rest', text = before' ++ tail' → IsHeader tail' name' rest' →
        freshAfter fresh before' = true → before.length ≤ before'.length := by
  induction text generalizing fresh line with
  | nil => cases h
  | cons c text ih =>
    cases hhead : if fresh then header? (c :: text) else none with
    | some found =>
      rw [openHeader?, hhead] at h
      cases h
      split_ifs at hhead with hfresh
      exact ⟨[], c :: text, found.2, rfl, header?_eq_some_iff.1 hhead, hfresh, rfl,
        fun _ _ _ _ _ _ _ => Nat.zero_le _⟩
    | none =>
      rw [openHeader?_cons hhead] at h
      obtain ⟨before, tail, rest, rfl, hheader, hfresh, hline, hfirst⟩ := ih h
      refine ⟨c :: before, tail, rest, rfl, hheader, hfresh, ?_, ?_⟩
      · rw [hline, Nat.add_assoc, ← lineFeeds_append, List.singleton_append]
      · intro before' tail' name' rest' htext hheader' hfresh'
        cases before' with
        | nil =>
          -- the text would start with the header
          change fresh = true at hfresh'
          rw [List.nil_append] at htext
          rw [if_pos hfresh', htext, header?_eq_some_iff.2 hheader'] at hhead
          cases hhead
        | cons d before' =>
          obtain ⟨rfl, hparts⟩ := List.cons_eq_cons.1 htext
          exact Nat.succ_le_succ (hfirst before' tail' name' rest' hparts hheader' hfresh')

/-! ### One round of the search -/

/-- The search for blocks starts at the start of a text or after a block, which no word follows
directly. -/
def Boundary (inWord : Bool) (text : Text) : Prop :=
  inWord = true → text.head?.any Text.isWord = false

theorem boundary_false (text : Text) : Boundary false text := by
  intro h
  cases h

theorem IsHeader.exists_cons (h : IsHeader text name rest) : ∃ tail, text = 'e' :: tail := by
  obtain ⟨blanks, -, -, rfl⟩ := h.eq
  exact ⟨_, rfl⟩

/-- No word goes on where a header starts a line. -/
theorem IsHeader.endsInWord_eq_false {tail : Text} (h : IsHeader tail name rest)
    (hstart : Boundary inWord (before ++ tail)) (hfresh : freshAfter true before = true) :
    Text.endsInWord inWord before = false := by
  rw [freshAfter_true_eq] at hfresh
  have hword := Text.endsInWord_of_lastLine (List.all_eq_true.1 hfresh)
  cases before with
  | cons c before => rwa [Text.endsInWord_cons] at hword ⊢
  | nil =>
    obtain ⟨more, rfl⟩ := h.exists_cons
    cases inWord with
    | false => rfl
    | true => exact absurd (hstart rfl) (by simp; decide)

/-- A header is one in a longer text too, if its name does not go on there. -/
theorem IsHeader.append (h : IsHeader text name rest) (hrest : rest ≠ []) (more : Text) :
    IsHeader (text ++ more) name (rest ++ more) := by
  obtain ⟨blanks, hne, hblanks, rfl⟩ := h.eq
  refine ⟨⟨blanks, hne, hblanks, by simp only [List.append_assoc]⟩, h.name, ?_⟩
  intro c hc
  rw [List.head?_append_of_ne_nil _ hrest] at hc
  exact h.stop c hc

/-- **No header stands open before a block.**  The closing word of the block would follow it, and
the search would have found the header first. -/
theorem openHeader?_gap_eq_none (h : firstBlock? inWord text = some (gap, block, after))
    (hstart : Boundary inWord text) : openHeader? true line gap = none := by
  obtain ⟨content, rfl, hfound, hgap, hfirst⟩ := firstBlock?_eq_some h
  by_contra hopen
  obtain ⟨header, hheader⟩ := Option.ne_none_iff_exists'.1 hopen
  obtain ⟨before, tail, rest, rfl, hisHeader, hfresh, -, -⟩ := openHeader?_eq_some hheader
  have hrest : rest ≠ [] := by
    -- the block does not start within a word
    rintro rfl
    obtain ⟨blanks, -, -, rfl⟩ := hisHeader.eq
    rw [List.append_nil, ← List.append_assoc, Text.endsInWord_append,
      Text.endsInWord_of_ne_nil _ hisHeader.name.1 hisHeader.name.2] at hgap
    cases hgap
  have hlonger := hisHeader.append hrest content
  have htail : tail ≠ [] := by
    obtain ⟨more, rfl⟩ := hisHeader.exists_cons
    exact List.cons_ne_nil _ _
  rw [List.append_assoc] at hstart hfirst
  refine hlonger.blockAt?_ne_none_of_later htail (isBlock_of_blockAt? hfound) ?_
  apply hfirst before _ rfl
  · rw [List.length_append]
    exact Nat.lt_add_of_pos_right (List.length_pos_iff.2 htail)
  · exact hlonger.endsInWord_eq_false hstart hfresh

/-! ### All rounds -/

theorem exists_eq_append_of_firstBlock?
    (h : firstBlock? inWord text = some (gap, block, after)) :
    ∃ chars, text = gap ++ chars ++ after ∧ Boundary true after := by
  obtain ⟨content, rfl, hfound, -, -⟩ := firstBlock?_eq_some h
  have hblock := isBlock_of_blockAt? hfound
  obtain ⟨chars, rfl, -⟩ := hblock.exists_append
  exact ⟨chars, by rw [List.append_assoc], fun _ => hblock.stop⟩

/-- Where the last of some blocks ends, or `start` if there is none. -/
def lastStop (start : Nat) : List Span → Nat
  | [] => start
  | s :: rest => lastStop s.stop rest

/-- The stretch of text before each of some blocks, from the end of the block before it. -/
def gapsBefore (start : Nat) : List Span → List (Nat × Nat)
  | [] => []
  | s :: rest => (start, s.start) :: gapsBefore s.stop rest

theorem lastStop_eq (start : Nat) (list : List Span) :
    list = [] ∧ lastStop start list = start ∨ ∃ s ∈ list, s.stop = lastStop start list := by
  induction list generalizing start with
  | nil => exact .inl ⟨rfl, rfl⟩
  | cons s list ih =>
    refine .inr ?_
    rcases ih s.stop with ⟨rfl, -⟩ | ⟨t, ht, hstop⟩
    · exact ⟨s, List.mem_cons_self, rfl⟩
    · exact ⟨t, List.mem_cons_of_mem _ ht, hstop⟩

/-- All blocks end where the last one does, or before. -/
theorem le_lastStop (inWord : Bool) (start : Nat) (text : Text) :
    start ≤ lastStop start (spansFrom inWord start text) ∧
      ∀ s ∈ spansFrom inWord start text, s.stop ≤ lastStop start (spansFrom inWord start text) := by
  fun_induction spansFrom inWord start text with
  | case1 inWord start text gap block after hfirst hlt ih =>
    simp only [lastStop]
    refine ⟨by omega, List.forall_mem_cons.2 ⟨ih.1, ih.2⟩⟩
  | case2 => exact ⟨Nat.le_refl _, fun _ hs => absurd hs List.not_mem_nil⟩

/-- **The check before a block never fails.** -/
theorem exists_closed_gap (hstart : Boundary inWord text) {g : Nat × Nat}
    (hg : g ∈ gapsBefore start (spansFrom inWord start text)) :
    ∃ first gap rest, text = first ++ gap ++ rest ∧ start + first.length = g.1 ∧
      g.1 + gap.length = g.2 ∧ ∀ line, openHeader? true line gap = none := by
  fun_induction spansFrom inWord start text with
  | case1 inWord start text gap block after hfirst hlt ih =>
    obtain ⟨chars, htext, hafter⟩ := exists_eq_append_of_firstBlock? hfirst
    rcases List.mem_cons.1 hg with rfl | hg
    · exact ⟨[], gap, chars ++ after, by rw [htext]; simp, rfl, rfl,
        fun _ => openHeader?_gap_eq_none hfirst hstart⟩
    · obtain ⟨first, gap', rest, rfl, hfrom, hto, hclosed⟩ := ih hafter hg
      refine ⟨gap ++ chars ++ first, gap', rest, by rw [htext]; simp, ?_, hto, hclosed⟩
      rw [htext] at hfrom
      simp only [List.length_append] at hfrom ⊢
      omega
  | case2 => cases hg

/-- **Only the check after the last block can fail.** -/
theorem exists_last_check (start : Nat) (hstart : Boundary inWord text) :
    ∃ first rest, text = first ++ rest ∧
      start + first.length = lastStop start (spansFrom inWord start text) ∧
      ∀ line header, blocks inWord line text = .error header ↔
        openHeader? true (line + lineFeeds first) rest = some header := by
  fun_induction spansFrom inWord start text with
  | case1 inWord start text gap block after hfirst hlt ih =>
    obtain ⟨chars, htext, hafter⟩ := exists_eq_append_of_firstBlock? hfirst
    obtain ⟨first, rest, hparts, hstop, hcheck⟩ := ih hafter
    have hlength := congrArg List.length htext
    refine ⟨gap ++ chars ++ first, rest, ?_, ?_, fun line header => ?_⟩
    · rw [htext, hparts, List.append_assoc _ first]
    · rw [lastStop, ← hstop]
      simp only [List.length_append] at hlength ⊢
      omega
    · have hfeeds : lineFeeds text - lineFeeds after = lineFeeds (gap ++ chars) := by
        rw [htext, lineFeeds_append, Nat.add_sub_cancel]
      rw [lineFeeds_append _ first, ← Nat.add_assoc, ← hcheck, ← hfeeds,
        blocks_of_firstBlock? hfirst (openHeader?_gap_eq_none hfirst hstart)]
      cases blocks true (line + (lineFeeds text - lineFeeds after)) after <;> simp [Except.map]
  | case2 inWord start text hfirst =>
    refine ⟨[], text, rfl, rfl, fun line header => ?_⟩
    change _ ↔ openHeader? true line text = some header
    cases hopen : openHeader? true line text with
    | none => simp [blocks_of_no_block hfirst hopen]
    | some found => simp [blocks_of_open_rest hfirst hopen]

/-! ### Open headers -/

theorem firstBlock?_eq_none (h : firstBlock? inWord text = none) {tail : Text}
    (htext : text = before ++ tail) (hbefore : Text.endsInWord inWord before = false) :
    blockAt? tail = none := by
  induction text generalizing inWord before with
  | nil =>
    obtain ⟨-, rfl⟩ := List.append_eq_nil_iff.1 htext.symm
    rfl
  | cons c text ih =>
    rw [firstBlock?] at h
    split at h
    · cases h
    · next hnone =>
      cases before with
      | nil =>
        change inWord = false at hbefore
        subst hbefore
        rw [List.nil_append] at htext
        rw [← htext]
        exact hnone
      | cons d before =>
        obtain ⟨rfl, hparts⟩ := List.cons_eq_cons.1 htext
        rw [Text.endsInWord_cons] at hbefore
        exact ih (Option.map_eq_none_iff.1 h) hparts hbefore

/-- **The search misses no block**: where one could start, a block starts or stands already. -/
theorem exists_span_of_blockAt? (start : Nat) {tail : Text} (htext : text = before ++ tail)
    (hbefore : Text.endsInWord inWord before = false) (hblock : blockAt? tail ≠ none) :
    ∃ s ∈ spansFrom inWord start text,
      s.start ≤ start + before.length ∧ start + before.length < s.stop := by
  obtain ⟨⟨found, more⟩, hfound⟩ := Option.ne_none_iff_exists'.1 hblock
  have hheader := (isBlock_of_blockAt? hfound).header
  fun_induction spansFrom inWord start text generalizing before with
  | case1 inWord start text gap block after hfirst hlt ih =>
    rcases hheader.at_firstBlock? hfirst htext hbefore with
      ⟨hstart, -⟩ | ⟨hstart, hstop⟩ | ⟨first, inner, rfl, hlength, hafter, hinner⟩
    · refine ⟨_, List.mem_cons_self, by rw [hstart], ?_⟩
      obtain ⟨content, rfl, hcontent, -, -⟩ := firstBlock?_eq_some hfirst
      have := length_lt_of_blockAt? hcontent
      simp only [List.length_append]
      omega
    · refine ⟨_, List.mem_cons_self, ?_, ?_⟩ <;> dsimp only <;> omega
    · obtain ⟨s, hs, hle, hlt'⟩ := ih hafter hinner
      refine ⟨s, List.mem_cons_of_mem _ hs, ?_⟩
      rw [List.length_append]
      omega
  | case2 inWord start text hfirst => exact absurd (firstBlock?_eq_none hfirst htext hbefore) hblock

theorem IsHeader.blockAt?_eq_none (h : IsHeader text name rest)
    (hend : ¬ Text.HasWordAfter true ['e', 'n', 'd'] rest) : blockAt? text = none := by
  rw [blockAt?, header?_eq_some_iff.2 h]
  exact Option.map_eq_none_iff.2 (splitAtEnd?_eq_none_iff.2 hend)

/-- No block starts after a header that starts none: the closing word would follow the header. -/
theorem IsHeader.start_le {tail : Text} (h : IsHeader tail name rest) (hnone : blockAt? tail = none)
    {s : Span} (hs : s ∈ spans (before ++ tail)) : s.start ≤ before.length := by
  obtain ⟨lead, content, after, hparts, hlead, hblock, -⟩ := exists_isBlock_of_mem_spansFrom hs
  rw [Nat.zero_add] at hlead
  rcases List.append_eq_append_iff.1 hparts with ⟨more, rfl, rfl⟩ | ⟨more, rfl, -⟩
  · rcases eq_or_ne more [] with rfl | hmore
    · rw [← hlead, List.append_nil]
    · exact absurd hnone (h.blockAt?_ne_none_of_later hmore hblock)
  · rw [← hlead, List.length_append]
    omega

/-- A header that stands open in the text, which has `before` in front of it and `rest` after its
name: it is outside all blocks, and no more than blanks stand between it and the start of a line or
the end of a block. -/
structure OpenHeader (text before name rest : Text) : Prop where
  /-- The header. -/
  header : ∃ tail, text = before ++ tail ∧ IsHeader tail name rest
  /-- Every block ends before it or starts after its name. -/
  outside : ∀ s ∈ spans text, s.stop ≤ before.length ∨ text.length ≤ s.start + rest.length
  /-- What precedes it. -/
  edge : ∃ first blanks, before = first ++ blanks ∧ (∀ c ∈ blanks, Text.isBlank c = true) ∧
    (first = [] ∨ first.getLast? = some '\n' ∨ ∃ s ∈ spans text, s.stop = first.length)

/-- An open header before which there is none. -/
structure FirstOpenHeader (text before name rest : Text) : Prop extends
    OpenHeader text before name rest where
  /-- The others stand after it. -/
  first : ∀ before' name' rest', OpenHeader text before' name' rest' →
    before.length ≤ before'.length

theorem freshAfter_append (fresh : Bool) (text rest : Text) :
    freshAfter fresh (text ++ rest) = freshAfter (freshAfter fresh text) rest :=
  List.foldl_append

theorem freshAfter_of_blank (h : ∀ c ∈ text, Text.isBlank c = true) :
    freshAfter true text = true := by
  rw [freshAfter_true_eq]
  exact List.all_eq_true.2 fun c hc => h c (text.lastLine_suffix.subset hc)

namespace OpenHeader

/-- No word goes on where an open header starts. -/
theorem endsInWord_eq_false (h : OpenHeader text before name rest) :
    Text.endsInWord false before = false := by
  obtain ⟨first, blanks, rfl, hblanks, hedge⟩ := h.edge
  rw [Text.endsInWord_append]
  rcases List.eq_nil_or_concat blanks with rfl | ⟨init, c, rfl⟩
  · change Text.endsInWord false first = false
    rcases hedge with rfl | hfeed | ⟨s, hs, hstop⟩
    · rfl
    · rw [Text.endsInWord, hfeed]
      decide
    · -- the header would follow the closing word of the block directly
      exfalso
      obtain ⟨tail, htext, hheader⟩ := h.header
      obtain ⟨lead, content, after, hparts, -, hblock, hlength⟩ :=
        exists_isBlock_of_mem_spansFrom hs
      obtain ⟨chars, rfl, -⟩ := hblock.exists_append
      obtain ⟨more, rfl⟩ := hheader.exists_cons
      rw [List.append_nil] at htext
      rw [htext, ← List.append_assoc] at hparts
      rw [htext] at hlength
      simp only [List.length_append] at hlength
      obtain rfl := List.append_inj_right' hparts (by omega)
      exact absurd hblock.stop (by simp; decide)
  · rw [Text.endsInWord, List.concat_eq_append, List.getLast?_concat]
    have hblank : Text.isBlank c = true := hblanks c (by simp)
    exact Bool.eq_false_iff.2 fun hword => by simp [Text.isBlank_of_isWord hword] at hblank

/-- An open header starts no block. -/
theorem blockAt?_eq_none (h : OpenHeader text before name rest) {tail : Text}
    (htext : text = before ++ tail) : blockAt? tail = none := by
  by_contra hblock
  obtain ⟨s, hs, hstart, hstop⟩ := exists_span_of_blockAt? 0 htext h.endsInWord_eq_false hblock
  obtain ⟨tail', htext', hheader⟩ := h.header
  have hlength := length_lt_of_header? (header?_eq_some_iff.2 hheader)
  have htotal := congrArg List.length htext'
  rw [List.length_append] at htotal
  rcases h.outside s hs with hbefore | hafter
  · omega
  · omega

/-- **No closing word follows an open header.** -/
theorem no_closing_word (h : OpenHeader text before name rest) :
    ¬ Text.HasWordAfter true ['e', 'n', 'd'] rest := by
  intro hend
  obtain ⟨tail, htext, hheader⟩ := h.header
  exact hheader.blockAt?_ne_none hend (h.blockAt?_eq_none htext)

/-- **An open header stands after all blocks.** -/
theorem stop_le (h : OpenHeader text before name rest) :
    ∀ s ∈ spans text, s.stop ≤ before.length := by
  intro s hs
  obtain ⟨tail, rfl, hheader⟩ := h.header
  have hstart := hheader.start_le (h.blockAt?_eq_none rfl) hs
  have hlength := length_lt_of_header? (header?_eq_some_iff.2 hheader)
  rcases h.outside s hs with hbefore | hafter
  · exact hbefore
  · rw [List.length_append] at hafter
    omega

/-- Seen from the end of the last block, an open header starts a line. -/
theorem exists_fresh (h : OpenHeader text before name rest) {first remainder : Text}
    (htext : text = first ++ remainder) (hstop : first.length = lastStop 0 (spans text)) :
    ∃ inner, before = first ++ inner ∧ freshAfter true inner = true := by
  have hle : first.length ≤ before.length := by
    rw [hstop]
    rcases lastStop_eq 0 (spans text) with ⟨-, hnone⟩ | ⟨s, hs, hlast⟩
    · omega
    · rw [← hlast]
      exact h.stop_le s hs
  obtain ⟨tail, hparts, -⟩ := h.header
  obtain ⟨inner, rfl⟩ : first <+: before :=
    List.prefix_of_prefix_length_le ⟨remainder, htext.symm⟩ ⟨tail, hparts.symm⟩ hle
  refine ⟨inner, rfl, ?_⟩
  obtain ⟨lead, blanks, hlead, hblanks, hedge⟩ := h.edge
  rcases List.append_eq_append_iff.1 hlead with ⟨more, rfl, rfl⟩ | ⟨more, rfl, rfl⟩
  · rcases List.eq_nil_or_concat more with rfl | ⟨init, c, rfl⟩
    · exact freshAfter_of_blank hblanks
    · -- past the last block there are only starts of lines
      rw [List.concat_eq_append] at hedge ⊢
      obtain rfl : c = '\n' := by
        rcases hedge with hnil | hfeed | ⟨s, hs, hend⟩
        · simp at hnil
        · simpa using hfeed
        · have := (le_lastStop false 0 text).2 s hs
          simp only [List.length_append, List.length_singleton] at hend
          rw [← spans] at this
          omega
      rw [freshAfter_append, freshAfter_append]
      exact freshAfter_of_blank hblanks
  · exact freshAfter_of_blank fun c hc => hblanks c (List.mem_append_right _ hc)

end OpenHeader

/-- **What the last check finds is the first open header.** -/
theorem exists_firstOpenHeader {first remainder : Text} (htext : text = first ++ remainder)
    (hstop : first.length = lastStop 0 (spans text))
    (h : openHeader? true (1 + lineFeeds first) remainder = some header) :
    ∃ before rest, FirstOpenHeader text before header.name rest ∧
      header.line = lineFeeds before + 1 := by
  obtain ⟨inner, tail, rest, rfl, hheader, hfresh, hline, hfirst⟩ := openHeader?_eq_some h
  refine ⟨first ++ inner, rest, ⟨⟨⟨tail, ?_, hheader⟩, fun s hs => .inl ?_, ?_⟩, ?_⟩, ?_⟩
  · rw [htext, List.append_assoc]
  · have := (le_lastStop false 0 text).2 s hs
    rw [← spans, ← hstop] at this
    rw [List.length_append]
    omega
  · rw [freshAfter_true_eq] at hfresh
    have hblanks := List.all_eq_true.1 hfresh
    rcases inner.eq_append_lastLine with hlast | ⟨lead, hlead⟩
    · refine ⟨first, inner, rfl, by rwa [hlast], ?_⟩
      rcases lastStop_eq 0 (spans text) with ⟨-, hnone⟩ | ⟨s, hs, hend⟩
      · exact .inl (List.eq_nil_of_length_eq_zero (by rw [hstop, hnone]))
      · exact .inr (.inr ⟨s, hs, by rw [hend, hstop]⟩)
    · refine ⟨first ++ (lead ++ ['\n']), inner.lastLine, ?_, hblanks, .inr (.inl ?_)⟩
      · rw [List.append_assoc, List.append_assoc, List.singleton_append, ← hlead]
      · rw [← List.append_assoc, List.getLast?_concat]
  · intro before' name' rest' hopen
    obtain ⟨inner', rfl, hfresh'⟩ := hopen.exists_fresh htext hstop
    obtain ⟨tail', hparts, hheader'⟩ := hopen.header
    rw [htext, List.append_assoc, List.append_cancel_left_eq] at hparts
    rw [List.length_append, List.length_append]
    exact Nat.add_le_add_left (hfirst inner' tail' name' rest' hparts hheader' hfresh') _
  · rw [hline, lineFeeds_append]
    omega

theorem FirstOpenHeader.unique {before' name' rest' : Text}
    (h : FirstOpenHeader text before name rest) (h' : FirstOpenHeader text before' name' rest') :
    before = before' ∧ name = name' := by
  have hlength := Nat.le_antisymm (h.first _ _ _ h'.toOpenHeader) (h'.first _ _ _ h.toOpenHeader)
  obtain ⟨tail, htext, hheader⟩ := h.header
  obtain ⟨tail', htext', hheader'⟩ := h'.header
  obtain ⟨rfl, rfl⟩ := List.append_inj (htext.symm.trans htext') hlength
  have hname := (header?_eq_some_iff.2 hheader).symm.trans (header?_eq_some_iff.2 hheader')
  exact ⟨rfl, (Prod.mk.inj (Option.some.inj hname)).1⟩

/-! ### Sources -/

/-- A source is read unless the check after its last block fails. -/
theorem exists_parse_check (text : Text) :
    ∃ first remainder, text = first ++ remainder ∧ first.length = lastStop 0 (spans text) ∧
      ∀ header, parse text = .error header ↔
        openHeader? true (1 + lineFeeds first) remainder = some header := by
  obtain ⟨first, remainder, htext, hstop, hcheck⟩ :=
    exists_last_check 0 (boundary_false text)
  rw [Nat.zero_add] at hstop
  refine ⟨first, remainder, htext, hstop, fun header => ?_⟩
  rw [← hcheck, parse]
  cases blocks false 1 text <;> simp [Except.map]

/-- An open header makes the source unreadable. -/
theorem OpenHeader.exists_error (h : OpenHeader text before name rest) :
    ∃ header, parse text = .error header := by
  obtain ⟨first, remainder, htext, hstop, hcheck⟩ := exists_parse_check text
  obtain ⟨inner, rfl, hfresh⟩ := h.exists_fresh htext hstop
  obtain ⟨tail, hparts, hheader⟩ := h.header
  rw [htext, List.append_assoc, List.append_cancel_left_eq] at hparts
  have hopen : openHeader? true (1 + lineFeeds first) remainder ≠ none := by
    rw [hparts]
    exact hheader.openHeader?_ne_none hfresh
  obtain ⟨header, hseen⟩ := Option.ne_none_iff_exists'.1 hopen
  exact ⟨header, (hcheck header).2 hseen⟩

/-- **The error tells the first open header.** -/
theorem parse_eq_error_iff : parse text = .error header ↔
    ∃ before rest, FirstOpenHeader text before header.name rest ∧
      header.line = lineFeeds before + 1 := by
  obtain ⟨first, remainder, htext, hstop, hcheck⟩ := exists_parse_check text
  constructor
  · intro h
    exact exists_firstOpenHeader htext hstop ((hcheck header).1 h)
  · rintro ⟨before, rest, hopen, hline⟩
    obtain ⟨found, herror⟩ := hopen.toOpenHeader.exists_error
    obtain ⟨before', rest', hopen', hline'⟩ :=
      exists_firstOpenHeader htext hstop ((hcheck found).1 herror)
    obtain ⟨rfl, hname⟩ := hopen.unique hopen'
    have heq : found = header := by
      cases found
      cases header
      simp_all
    rw [herror, heq]

/-- A header that starts a line and has no closing word after it stands open, unless its name is the
closing word of a block. -/
theorem LineHeader.openHeader (h : LineHeader text before name rest)
    (hname : name ≠ ['e', 'n', 'd'])
    (hend : ¬ Text.HasWordAfter true ['e', 'n', 'd'] rest) : OpenHeader text before name rest := by
  refine ⟨h.header, fun s hs => .inl ?_, ?_⟩
  · have hstart : s.start ≤ before.length := by
      obtain ⟨tail, rfl, hheader⟩ := h.header
      exact hheader.start_le (hheader.blockAt?_eq_none hend) hs
    by_contra hstop
    rcases h.closing_word hs hstart (Nat.lt_of_not_le hstop) with heq | hfollows
    · exact hname heq
    · exact hend hfollows
  · rcases before.eq_append_lastLine with hlast | ⟨lead, hlead⟩
    · exact ⟨[], before, rfl, by rw [hlast]; exact h.line, .inl rfl⟩
    · refine ⟨lead ++ ['\n'], before.lastLine, ?_, h.line, .inr (.inl List.getLast?_concat)⟩
      rw [List.append_assoc, List.singleton_append, ← hlead]

/-- **A source is refused for its first open header.**  A header that starts a line and has no
closing word after it makes the source unreadable, unless it is for the name `end`.  What is
reported is the name and the line of the first open header, and no closing word follows any open
header.  So the checks before the blocks never fail; it is the one after the last block that does.
-/
theorem parse_error_first_open (text : Text) :
    (∀ before name rest, LineHeader text before name rest → name ≠ ['e', 'n', 'd'] →
      ¬ Text.HasWordAfter true ['e', 'n', 'd'] rest → ∃ header, parse text = .error header) ∧
    (∀ header, parse text = .error header ↔
      ∃ before rest, FirstOpenHeader text before header.name rest ∧
        header.line = lineFeeds before + 1) ∧
    (∀ before name rest, OpenHeader text before name rest →
      ¬ Text.HasWordAfter true ['e', 'n', 'd'] rest) ∧
    (∀ g ∈ gapsBefore 0 (spans text), ∀ line,
      openHeader? true line ((text.take g.2).drop g.1) = none) ∧
    ∀ header, parse text = .error header ↔
      openHeader? true (1 + lineFeeds (text.take (lastStop 0 (spans text))))
        (text.drop (lastStop 0 (spans text))) = some header := by
  refine ⟨?_, fun _ => parse_eq_error_iff, fun _ _ _ h => h.no_closing_word, ?_, ?_⟩
  · intro before name rest hline hname hend
    exact (hline.openHeader hname hend).exists_error
  · intro g hg line
    obtain ⟨lead, gap, rest, hparts, hfrom, hto, hclosed⟩ :=
      exists_closed_gap (boundary_false text) hg
    rw [Nat.zero_add] at hfrom
    have hgap : (text.take g.2).drop g.1 = gap := by
      rw [hparts, ← hto, ← hfrom, ← List.length_append, List.take_left, List.drop_left]
    rw [hgap]
    exact hclosed line
  · obtain ⟨first, remainder, htext, hstop, hcheck⟩ := exists_parse_check text
    have htake : text.take first.length = first := by rw [htext, List.take_left]
    have hdrop : text.drop first.length = remainder := by rw [htext, List.drop_left]
    rw [← hstop, htake, hdrop]
    exact hcheck

/-- The header after a block and a blank line stands open, on the fifth line. -/
theorem open_header_reported :
    LineHeader "enum A\n a\nend\n\n enum B\n legend\n".toList "enum A\n a\nend\n\n ".toList
      "B".toList "\n legend\n".toList ∧
    (∃ header, parse "enum A\n a\nend\n\n enum B\n legend\n".toList = .error header) ∧
    parse "enum A\n a\nend\n\n enum B\n legend\n".toList = .error ⟨"B".toList, 5⟩ ∧
    ∃ before rest,
      FirstOpenHeader "enum A\n a\nend\n\n enum B\n legend\n".toList before "B".toList rest ∧
      5 = lineFeeds before + 1 := by
  have hline : LineHeader "enum A\n a\nend\n\n enum B\n legend\n".toList
      "enum A\n a\nend\n\n ".toList "B".toList "\n legend\n".toList :=
    ⟨⟨"enum B\n legend\n".toList, rfl, header?_eq_some_iff.1 (by decide)⟩,
      List.all_eq_true.1 (by decide)⟩
  have hend : ¬ Text.HasWordAfter true ['e', 'n', 'd'] "\n legend\n".toList :=
    splitAtEnd?_eq_none_iff.1 (by decide)
  have hfirst : firstBlock? false "enum A\n a\nend\n\n enum B\n legend\n".toList =
      some ([], ⟨"A".toList, "\n a\n".toList⟩, "\n\n enum B\n legend\n".toList) := by
    decide +kernel
  have hparse : parse "enum A\n a\nend\n\n enum B\n legend\n".toList =
      .error ⟨"B".toList, 5⟩ := by
    have hopen : openHeader? true 3 "\n\n enum B\n legend\n".toList = some ⟨"B".toList, 5⟩ := by
      decide
    have hlast : blocks true 3 "\n\n enum B\n legend\n".toList = .error ⟨"B".toList, 5⟩ :=
      blocks_of_open_rest (by decide +kernel) hopen
    have hfeeds : lineFeeds "enum A\n a\nend\n\n enum B\n legend\n".toList -
        lineFeeds "\n\n enum B\n legend\n".toList = 2 := by decide
    rw [parse, blocks_of_firstBlock? hfirst rfl, hfeeds, hlast]
    rfl
  obtain ⟨hrefused, hdescribes, -⟩ :=
    parse_error_first_open "enum A\n a\nend\n\n enum B\n legend\n".toList
  exact ⟨hline, hrefused _ _ _ hline (by decide) hend, hparse, (hdescribes _).1 hparse⟩

end Enumeration

end OpcodeLens
