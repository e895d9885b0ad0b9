import Mathlib.Data.List.Pairwise
import OpcodeLens.Proofs.Enumeration.Source
import OpcodeLens.Proofs.OrderedMap
import OpcodeLens.Proofs.Text.Position

/-!
# Headers and blocks

A block runs to the first closing word after its name, whatever stands in between.  So a block
without a closing word of its own swallows the headers that follow it up to the next closing word,
and it is an error only where no closing word follows at all.

* `Enumeration.spans` : the blocks of a source and where they stand.
* `Enumeration.IsHeader.closing_word` : the closing words after the start of a header.
* `Enumeration.exists_span_of_header` : **every header that starts a line stands in a block** of a
  source that can be read.
* `Enumeration.line_header_read_iff` : **a header that starts a line is read unless it is
  swallowed**, and it is an error if no closing word follows it.
-/

namespace OpcodeLens

namespace Enumeration

variable {inWord : Bool} {line start : Nat} {text before name rest gap after : Text} {block : Block}

/-! ### Closing words after a header -/

/-- **The closing words after the start of a header** follow its name, unless the name is one. -/
theorem IsHeader.closing_word (h : IsHeader text name rest)
    (htext : text = before ++ ['e', 'n', 'd'] ++ after)
    (hbefore : Text.endsInWord false before = false)
    (hafter : after.head?.any Text.isWord = false) :
    name = ['e', 'n', 'd'] ∧ 'e' ∉ before.tail ∨ Text.HasWordAfter true ['e', 'n', 'd'] rest := by
  obtain ⟨blanks, hne, hblanks, rfl⟩ := h.eq
  have htail : 'e' ∉ (['e', 'n', 'u', 'm'] ++ blanks).tail := by
    simp only [List.cons_append, List.nil_append, List.tail_cons, List.mem_cons, not_or]
    exact ⟨by decide, by decide, by decide, fun he => absurd (hblanks 'e' he) (by decide)⟩
  have hword : ['e', 'n', 'd'] ++ after = name ++ rest → name = ['e', 'n', 'd'] := by
    intro heq
    have hstop : ∀ c ∈ after.head?, Text.isWord c = false := by
      intro c hc
      rw [Option.mem_def.1 hc] at hafter
      exact hafter
    rw [← Text.takeWhile_append_stop h.name.2 h.stop, ← heq]
    exact Text.takeWhile_append_stop (List.all_eq_true.1 (by decide)) hstop
  rw [List.append_assoc before] at htext
  rcases List.append_eq_append_iff.1 htext with ⟨inner, rfl, hrest⟩ | ⟨part, hpart, hrest⟩
  · -- it stands after the name
    refine .inr ⟨inner, after, by rw [hrest, List.append_assoc], ?_, hafter⟩
    rwa [Text.endsInWord_append, Text.endsInWord_append _ _ name,
      Text.endsInWord_of_ne_nil _ h.name.1 h.name.2] at hbefore
  rcases List.append_eq_append_iff.1 hpart with ⟨inner, rfl, hname⟩ | ⟨blank, hblank, rfl⟩
  · cases inner with
    | nil =>
      rw [List.nil_append] at hname
      subst hname
      exact .inl ⟨hword hrest, by rwa [List.append_nil]⟩
    | cons c inner =>
      -- no word starts within the name
      rw [Text.endsInWord_append, Text.endsInWord_of_ne_nil _ (by simp)] at hbefore
      · cases hbefore
      · exact fun d hd => h.name.2 d (by rw [hname]; exact List.mem_append_left _ hd)
  · cases blank with
    | nil =>
      rw [List.append_nil] at hblank
      subst hblank
      exact .inl ⟨hword hrest, htail⟩
    | cons c blank =>
      -- no closing word starts within the keyword and the blanks
      rw [List.cons_append, List.cons_append, List.cons_append] at hrest
      obtain ⟨rfl, -⟩ := List.cons_eq_cons.1 hrest
      cases before with
      | nil =>
        rw [List.nil_append] at hblank
        obtain ⟨-, rfl⟩ := List.cons_eq_cons.1 hblank
        cases hrest
      | cons d before =>
        rw [hblank] at htail
        exact absurd (by simp) htail

/-- **A header before a block of its own text is a block too**: the closing word of the later one
follows its name. -/
theorem IsHeader.blockAt?_ne_none_of_later (h : IsHeader (before ++ text) name rest)
    (hne : before ≠ []) (hblock : IsBlock text block after) : blockAt? (before ++ text) ≠ none := by
  obtain ⟨opening, rfl, hopening⟩ := hblock.exists_opening
  have hparts : before ++ ('e' :: opening ++ ['e', 'n', 'd'] ++ after) =
      before ++ 'e' :: opening ++ ['e', 'n', 'd'] ++ after := by
    simp only [List.append_assoc]
  have hword : Text.endsInWord false (before ++ 'e' :: opening) = false := by
    rw [Text.endsInWord_append, hopening]
  rcases h.closing_word hparts hword hblock.stop with ⟨-, he⟩ | hend
  · -- the keyword of the later block stands before the closing word
    obtain ⟨c, tail, rfl⟩ := List.exists_cons_of_ne_nil hne
    exact absurd (by simp) he
  · exact h.blockAt?_ne_none hend

/-! ### The first block -/

/-- Where the first block is found, it starts, and no other one starts before it. -/
theorem firstBlock?_eq_some (h : firstBlock? inWord text = some (gap, block, after)) :
    ∃ rest, text = gap ++ rest ∧ blockAt? rest = some (block, after) ∧
      Text.endsInWord inWord gap = false ∧
      ∀ before tail, text = before ++ tail → before.length < gap.length →
        Text.endsInWord inWord before = false → blockAt? tail = none := by
  induction text generalizing inWord gap with
  | nil => cases h
  | cons c rest ih =>
    rw [firstBlock?] at h
    split at h
    · next hblock =>
      cases h
      split_ifs at hblock with hinWord
      exact ⟨c :: rest, rfl, hblock, Bool.eq_false_iff.2 hinWord,
        fun _ _ _ hlt => absurd hlt (Nat.not_lt_zero _)⟩
    · next hnone =>
      obtain ⟨⟨gap, _, _⟩, hrest, heq⟩ := Option.map_eq_some_iff.1 h
      cases heq
      obtain ⟨tail, rfl, hblock, hgap, hfirst⟩ := ih hrest
      refine ⟨tail, rfl, hblock, by rwa [Text.endsInWord_cons], ?_⟩
      intro before tail' heq hlt hword
      cases before with
      | nil =>
        change inWord = false at hword
        subst hword
        rw [List.nil_append] at heq
        rw [← heq]
        exact hnone
      | cons d before =>
        obtain ⟨rfl, hparts⟩ := List.cons_eq_cons.1 heq
        rw [Text.endsInWord_cons] at hword
        exact hfirst before tail' hparts (Nat.lt_of_succ_lt_succ hlt) hword

/-- **Where a header stands**, seen from the first block: it starts that block, or it stands inside
that block, or after it. -/
theorem IsHeader.at_firstBlock? (hblock : firstBlock? inWord text = some (gap, block, after))
    {tail : Text} (htext : text = before ++ tail) (h : IsHeader tail name rest)
    (hbefore : Text.endsInWord inWord before = false) :
    before.length = gap.length ∧ name = block.name ∨
      gap.length < before.length ∧ before.length + after.length < text.length ∨
      ∃ first inner, before = first ++ inner ∧ first.length + after.length = text.length ∧
        after = inner ++ tail ∧ Text.endsInWord true inner = false := by
  obtain ⟨content, hcontent, hfound, hgap, hfirst⟩ := firstBlock?_eq_some hblock
  have hisBlock := isBlock_of_blockAt? hfound
  rcases Nat.lt_trichotomy before.length gap.length with hlt | heq | hgt
  · -- a header in the gap would be a block
    exfalso
    have hnone := hfirst before tail htext hlt hbefore
    rw [hcontent] at htext
    obtain ⟨more, rfl, rfl⟩ : ∃ more, gap = before ++ more ∧ tail = more ++ content := by
      rcases List.append_eq_append_iff.1 htext with ⟨more, rfl, -⟩ | ⟨more, hg, ht⟩
      · rw [List.length_append] at hlt
        omega
      · exact ⟨more, hg, ht⟩
    have hmore : more ≠ [] := by
      rintro rfl
      simp at hlt
    exact h.blockAt?_ne_none_of_later hmore hisBlock hnone
  · -- the header of the block
    refine .inl ⟨heq, ?_⟩
    rw [hcontent] at htext
    obtain ⟨rfl, rfl⟩ := List.append_inj htext heq.symm
    have hname := header?_eq_some_iff.2 hisBlock.header
    rw [header?_eq_some_iff.2 h, Option.some.injEq, Prod.mk.injEq] at hname
    exact hname.1
  · by_cases hin : before.length + after.length < text.length
    · exact .inr (.inl ⟨hgt, hin⟩)
    · -- the block ends before the header
      obtain ⟨chars, rfl, hword⟩ := hisBlock.exists_append
      have hend : Text.endsInWord inWord (gap ++ chars) = true := by
        rw [Text.endsInWord_append, hword]
      rw [← List.append_assoc] at hcontent
      have hlength := congrArg List.length hcontent
      rw [List.length_append] at hlength
      rw [hcontent] at htext
      rcases List.append_eq_append_iff.1 htext with ⟨inner, rfl, rfl⟩ | ⟨inner, heq, -⟩
      · refine .inr (.inr ⟨gap ++ chars, inner, rfl, hlength.symm, rfl, ?_⟩)
        rwa [Text.endsInWord_append, hend] at hbefore
      · rw [heq, List.length_append] at hlength
        obtain rfl : inner = [] := List.eq_nil_of_length_eq_zero (by omega)
        rw [heq, List.append_nil, hbefore] at hend
        cases hend

/-! ### Spans -/

/-- A block and where it stands in the text, in characters. -/
structure Span where
  /-- Where its keyword starts. -/
  start : Nat
  /-- Where its closing word ends. -/
  stop : Nat
  /-- The block. -/
  block : Block
  deriving DecidableEq, Repr

/-- The blocks of a text that starts at place `start`. -/
def spansFrom (inWord : Bool) (start : Nat) (text : Text) : List Span :=
  match h : firstBlock? inWord text with
  | some (gap, block, after) =>
    have : after.length < text.length := length_lt_of_firstBlock? h
    ⟨start + gap.length, start + (text.length - after.length), block⟩ ::
      spansFrom true (start + (text.length - after.length)) after
  | none => []
termination_by text.length

/-- The blocks of a source. -/
def spans (text : Text) : List Span := spansFrom false 0 text

theorem spansFrom_of_firstBlock? (h : firstBlock? inWord text = some (gap, block, after)) :
    spansFrom inWord start text =
      ⟨start + gap.length, start + (text.length - after.length), block⟩ ::
        spansFrom true (start + (text.length - after.length)) after := by
  rw [spansFrom]
  split
  · next hfirst =>
    rw [h] at hfirst
    cases hfirst
    rfl
  · next hfirst =>
    rw [h] at hfirst
    cases hfirst

theorem spansFrom_of_no_block (h : firstBlock? inWord text = none) :
    spansFrom inWord start text = [] := by
  rw [spansFrom]
  split
  · next hfirst =>
    rw [h] at hfirst
    cases hfirst
  · rfl

/-- **The blocks that are read are those of the spans.** -/
theorem blocks_eq_map_spansFrom {list : List Block} (h : blocks inWord line text = .ok list) :
    list = (spansFrom inWord start text).map (·.block) := by
  fun_induction spansFrom inWord start text generalizing line list with
  | case1 inWord start text gap block after hfirst hlt ih =>
    obtain ⟨line', rest, hrest, rfl⟩ := exists_blocks_of_firstBlock? hfirst h
    rw [List.map_cons, ← ih hrest]
  | case2 inWord start text hfirst => exact (openHeader?_eq_none_of_blocks hfirst h).2

/-- What stands at a span. -/
theorem exists_isBlock_of_mem_spansFrom {s : Span} (hs : s ∈ spansFrom inWord start text) :
    ∃ before content after, text = before ++ content ∧ start + before.length = s.start ∧
      IsBlock content s.block after ∧ s.stop + after.length = start + text.length := by
  fun_induction spansFrom inWord start text with
  | case1 inWord start text gap block after hfirst hlt ih =>
    obtain ⟨content, hcontent, hfound, -, -⟩ := firstBlock?_eq_some hfirst
    have hisBlock := isBlock_of_blockAt? hfound
    rcases List.mem_cons.1 hs with rfl | hs
    · refine ⟨gap, content, after, hcontent, rfl, hisBlock, ?_⟩
      dsimp only
      omega
    · obtain ⟨before, inner, after', hafter, hstart, hinner, hstop⟩ := ih hs
      obtain ⟨chars, rfl, -⟩ := hisBlock.exists_append
      have hlength := congrArg List.length hcontent
      simp only [List.length_append] at hlength
      refine ⟨gap ++ chars ++ before, inner, after', ?_, ?_, hinner, ?_⟩
      · rw [hcontent, hafter]
        simp only [List.append_assoc]
      · rw [← hstart]
        simp only [List.length_append]
        omega
      · omega
  | case2 => cases hs

/-- The spans follow one another. -/
theorem spansFrom_pairwise (inWord : Bool) (start : Nat) (text : Text) :
    (∀ s ∈ spansFrom inWord start text, start ≤ s.start ∧ s.start < s.stop) ∧
      (spansFrom inWord start text).Pairwise fun s t => s.stop ≤ t.start := by
  fun_induction spansFrom inWord start text with
  | case1 inWord start text gap block after hfirst hlt ih =>
    obtain ⟨content, hcontent, hfound, -, -⟩ := firstBlock?_eq_some hfirst
    have hlength := congrArg List.length hcontent
    have hshorter := length_lt_of_blockAt? hfound
    rw [List.length_append] at hlength
    refine ⟨List.forall_mem_cons.2 ⟨?_, fun s hs => ?_⟩,
      List.pairwise_cons.2 ⟨fun s hs => ?_, ih.2⟩⟩
    · dsimp only
      omega
    · have := ih.1 s hs
      omega
    · exact (ih.1 s hs).1
  | case2 => exact ⟨fun _ hs => absurd hs List.not_mem_nil, .nil⟩

/-- No place is in two spans. -/
theorem eq_of_mem_spans {s t : Span} (hs : s ∈ spans text) (ht : t ∈ spans text) (place : Nat)
    (hplace : s.start ≤ place ∧ place < s.stop) (hplace' : t.start ≤ place ∧ place < t.stop) :
    s = t := by
  have hdisjoint : (spans text).Pairwise fun s t => s.stop ≤ t.start ∨ t.stop ≤ s.start :=
    (spansFrom_pairwise false 0 text).2.imp .inl
  by_contra hne
  have : Std.Symm fun s t : Span => s.stop ≤ t.start ∨ t.stop ≤ s.start := ⟨fun _ _ => Or.symm⟩
  rcases hdisjoint.forall hs ht hne with h | h <;> omega

/-! ### Headers at the start of a line -/

/-- Is the place after the text the start of a line, up to blanks?  `fresh` says so of the place
before it. -/
def freshAfter (fresh : Bool) (text : Text) : Bool :=
  text.foldl (fun fresh c => c = '\n' || fresh && Text.isBlank c) fresh

theorem freshAfter_true_eq (text : Text) :
    freshAfter true text = text.lastLine.all Text.isBlank := by
  induction text using List.reverseRecOn with
  | nil => rfl
  | append_singleton text c ih =>
    rw [freshAfter, List.foldl_concat, ← freshAfter, ih, Text.lastLine_concat]
    by_cases hc : c = '\n'
    · simp [hc]
    · simp [hc]

/-- A header at the start of a line is seen. -/
theorem IsHeader.openHeader?_ne_none {fresh : Bool} (h : IsHeader text name rest)
    (hfresh : freshAfter fresh before = true) : openHeader? fresh line (before ++ text) ≠ none := by
  induction before generalizing fresh line with
  | nil =>
    change fresh = true at hfresh
    subst hfresh
    have hheader := header?_eq_some_iff.2 h
    cases text with
    | nil => cases hheader
    | cons c text => simp [openHeader?, hheader]
  | cons c before ih =>
    rw [freshAfter, List.foldl_cons, ← freshAfter] at hfresh
    rw [List.cons_append, openHeader?]
    split
    · simp
    · split_ifs with hc
      · exact ih (by simpa [hc] using hfresh)
      · exact ih (by simpa [hc] using hfresh)

/-- **Every header that starts a line stands in a block**: it starts the block, or the block has
swallowed it. -/
theorem exists_span_of_header (start : Nat) {list : List Block}
    (hblocks : blocks inWord line text = .ok list)
    {tail : Text} (htext : text = before ++ tail) (h : IsHeader tail name rest)
    (hbefore : Text.endsInWord inWord before = false)
    (hline : ∀ c ∈ before.lastLine, Text.isBlank c = true) :
    ∃ s ∈ spansFrom inWord start text, s.start = start + before.length ∧ s.block.name = name ∨
      s.start < start + before.length ∧ start + before.length < s.stop := by
  fun_induction spansFrom inWord start text generalizing line list before with
  | case1 inWord start text gap block after hfirst hlt ih =>
    rcases h.at_firstBlock? hfirst htext hbefore with
      ⟨hstart, hname⟩ | ⟨hstart, hstop⟩ | ⟨first, inner, rfl, hlength, hafter, hinner⟩
    · exact ⟨_, List.mem_cons_self, .inl ⟨by rw [hstart], hname.symm⟩⟩
    · refine ⟨_, List.mem_cons_self, .inr ⟨?_, ?_⟩⟩ <;> dsimp only <;> omega
    · -- the rest of the search finds it
      obtain ⟨line', rest', hrest, -⟩ := exists_blocks_of_firstBlock? hfirst hblocks
      obtain ⟨s, hs, hplace⟩ := ih hrest hafter hinner
        fun c hc => hline c (Text.lastLine_subset_append first inner hc)
      have hfirstLength : start + (text.length - after.length) + inner.length =
          start + (first ++ inner).length := by
        rw [List.length_append]
        omega
      rw [hfirstLength] at hplace
      exact ⟨s, List.mem_cons_of_mem _ hs, hplace⟩
  | case2 inWord start text hfirst =>
    -- a header that no block covers is an error
    exfalso
    have hopen := (openHeader?_eq_none_of_blocks hfirst hblocks).1
    rw [htext] at hopen
    refine h.openHeader?_ne_none ?_ hopen
    rw [freshAfter_true_eq]
    exact List.all_eq_true.2 hline

/-- A header that starts a line of the text, which has `before` in front of it: no more than blanks
stand between it and the line feed before it. -/
structure LineHeader (text before name rest : Text) : Prop where
  /-- The header. -/
  header : ∃ tail, text = before ++ tail ∧ IsHeader tail name rest
  /-- What precedes it on its line. -/
  line : ∀ c ∈ before.lastLine, Text.isBlank c = true

/-- A span that a header stands in ends in a closing word, which follows the name of the header
unless it is the name. -/
theorem LineHeader.closing_word (h : LineHeader text before name rest) {s : Span}
    (hs : s ∈ spans text) (hstart : s.start ≤ before.length) (hstop : before.length < s.stop) :
    name = ['e', 'n', 'd'] ∨ Text.HasWordAfter true ['e', 'n', 'd'] rest := by
  obtain ⟨tail, rfl, hheader⟩ := h.header
  obtain ⟨first, content, after, htext, hfirst, hblock, hlength⟩ :=
    exists_isBlock_of_mem_spansFrom hs
  obtain ⟨opening, rfl, hopening⟩ := hblock.exists_opening
  have hbefore := Text.endsInWord_of_lastLine h.line
  have hword : Text.endsInWord false (first ++ 'e' :: opening) = false := by
    rw [Text.endsInWord_append, hopening]
  have hparts : before ++ tail = (first ++ 'e' :: opening) ++ (['e', 'n', 'd'] ++ after) := by
    rw [htext]
    simp only [List.append_assoc]
  rcases List.append_eq_append_iff.1 hparts with ⟨inner, hinner, rfl⟩ | ⟨inner, rfl, hrest⟩
  · -- the closing word stands after the start of the header
    rw [hinner, Text.endsInWord_append, hbefore] at hword
    exact (hheader.closing_word (List.append_assoc ..).symm hword hblock.stop).imp_left And.left
  · -- the header does not start within the closing word
    have hshort : inner.length < 3 := by
      have hclosing := congrArg List.length hrest
      simp only [List.length_append, List.length_cons, List.length_nil] at hstop hlength hclosing
      omega
    obtain ⟨more, hinner, rfl⟩ :
        ∃ more, ['e', 'n', 'd'] = inner ++ more ∧ tail = more ++ after := by
      rcases List.append_eq_append_iff.1 hrest with ⟨more, rfl, -⟩ | hmore
      · rw [List.length_append, List.length_cons, List.length_cons, List.length_cons] at hshort
        omega
      · exact hmore
    cases inner with
    | nil =>
      rw [List.nil_append] at hinner
      subst hinner
      have hnil : Text.endsInWord false [] = false := rfl
      exact (hheader.closing_word rfl hnil hblock.stop).imp_left And.left
    | cons c inner =>
      rw [Text.endsInWord_append, Text.endsInWord_of_ne_nil _ (by simp)] at hbefore
      · cases hbefore
      · have hend : ∀ d ∈ ['e', 'n', 'd'], Text.isWord d = true := List.all_eq_true.1 (by decide)
        exact fun d hd => hend d (by rw [hinner]; exact List.mem_append_left _ hd)

/-- **A header that starts a line is read unless it is swallowed.**  The blocks of a text run from a
header to the first closing word after its name.  In a source that can be read, a header starts a
block of its own if it does not stand inside another block, which takes it for members.  If no
closing word follows the header, then the source cannot be read; a header for the name `end` may
close an open block. -/
theorem line_header_read_iff {text before name rest : Text}
    (h : LineHeader text before name rest) :
    (∀ s ∈ spans text, ∃ first content after, text = first ++ content ∧ first.length = s.start ∧
      IsBlock content s.block after ∧ s.stop + after.length = text.length) ∧
    (∀ enums, parse text = .ok enums →
      enums = .ofList ((spans text).map fun s => (s.block.name, ofBlock s.block)) ∧
      ((∃ s ∈ spans text, s.start = before.length ∧ s.block.name = name ∧ name ∈ enums.keys) ↔
        ¬ ∃ s ∈ spans text, s.start < before.length ∧ before.length < s.stop)) ∧
    (name ≠ ['e', 'n', 'd'] → ¬ Text.HasWordAfter true ['e', 'n', 'd'] rest →
      ∃ header, parse text = .error header) := by
  obtain ⟨tail, htext, hheader⟩ := h.header
  have hword := Text.endsInWord_of_lastLine h.line
  -- in a source that can be read a block covers the header
  have hcovered : ∀ enums, parse text = .ok enums →
      ∃ s ∈ spans text, s.start = before.length ∧ s.block.name = name ∨
        s.start < before.length ∧ before.length < s.stop := by
    intro enums hparse
    obtain ⟨list, hblocks, -⟩ := exists_blocks_of_parse hparse
    simpa only [Nat.zero_add, spans] using
      exists_span_of_header 0 hblocks htext hheader hword h.line
  have hproper : ∀ s ∈ spans text, s.start < s.stop := fun s hs =>
    ((spansFrom_pairwise false 0 text).1 s hs).2
  refine ⟨fun s hs => ?_, fun enums hparse => ?_, fun hname hend => ?_⟩
  · simpa only [Nat.zero_add] using exists_isBlock_of_mem_spansFrom hs
  · obtain ⟨list, hblocks, henums⟩ := exists_blocks_of_parse hparse
    rw [blocks_eq_map_spansFrom hblocks, List.map_map] at henums
    refine ⟨henums, ⟨?_, fun hnot => ?_⟩⟩
    · rintro ⟨s, hs, hstart, -, -⟩ ⟨t, ht, htstart, htstop⟩
      have hstop := hproper s hs
      obtain rfl := eq_of_mem_spans hs ht before.length (by omega) (by omega)
      omega
    · obtain ⟨s, hs, ⟨hstart, hname⟩ | hinside⟩ := hcovered enums hparse
      · refine ⟨s, hs, hstart, hname, ?_⟩
        rw [henums, OrderedMap.keys_ofList, List.mem_eraseDups, List.map_map, ← hname]
        exact List.mem_map_of_mem hs
      · exact absurd ⟨s, hs, hinside⟩ hnot
  · cases hparse : parse text with
    | error header => exact ⟨header, rfl⟩
    | ok enums =>
      exfalso
      obtain ⟨s, hs, hplace⟩ := hcovered enums hparse
      have hstop := hproper s hs
      rcases h.closing_word hs (by omega) (by omega) with heq | hfollows
      · exact hname heq
      · exact hend hfollows

/-- A header after a block: read if it has a closing word, an error if it has none. -/
theorem second_header_read :
    LineHeader "enum A\n a\nend\n enum B\n b\nend".toList "enum A\n a\nend\n ".toList "B".toList
      "\n b\nend".toList ∧
    (∃ enums, parse "enum A\n a\nend\n enum B\n b\nend".toList = .ok enums ∧
      "B".toList ∈ enums.keys) ∧
    LineHeader "enum A\n a\nend\n enum B\n b".toList "enum A\n a\nend\n ".toList "B".toList
      "\n b".toList ∧
    ∃ header, parse "enum A\n a\nend\n enum B\n b".toList = .error header := by
  have hclosed : LineHeader "enum A\n a\nend\n enum B\n b\nend".toList
      "enum A\n a\nend\n ".toList "B".toList "\n b\nend".toList :=
    ⟨⟨"enum B\n b\nend".toList, rfl, header?_eq_some_iff.1 (by decide)⟩,
      List.all_eq_true.1 (by decide)⟩
  have hopen : LineHeader "enum A\n a\nend\n enum B\n b".toList "enum A\n a\nend\n ".toList
      "B".toList "\n b".toList :=
    ⟨⟨"enum B\n b".toList, rfl, header?_eq_some_iff.1 (by decide)⟩,
      List.all_eq_true.1 (by decide)⟩
  -- the two blocks of the first text
  have hfirst : firstBlock? false "enum A\n a\nend\n enum B\n b\nend".toList =
      some ([], ⟨"A".toList, "\n a\n".toList⟩, "\n enum B\n b\nend".toList) := by decide +kernel
  have hsecond : firstBlock? true "\n enum B\n b\nend".toList =
      some ("\n ".toList, ⟨"B".toList, "\n b\n".toList⟩, []) := by decide +kernel
  have hspans : spans "enum A\n a\nend\n enum B\n b\nend".toList =
      [⟨0, 13, "A".toList, "\n a\n".toList⟩, ⟨15, 28, "B".toList, "\n b\n".toList⟩] := by
    rw [spans, spansFrom_of_firstBlock? hfirst, spansFrom_of_firstBlock? hsecond,
      spansFrom_of_no_block rfl]
    decide
  have hparse : ∃ enums, parse "enum A\n a\nend\n enum B\n b\nend".toList = .ok enums := by
    rw [parse, blocks_of_firstBlock? hfirst rfl, blocks_of_firstBlock? hsecond (by decide),
      blocks_of_no_block rfl rfl]
    exact ⟨_, rfl⟩
  refine ⟨hclosed, ?_, hopen, (line_header_read_iff hopen).2.2 (by decide) ?_⟩
  · obtain ⟨enums, hparse⟩ := hparse
    obtain ⟨-, -, -, -, hkey⟩ := ((line_header_read_iff hclosed).2.1 enums hparse).2.2 (by
      rw [hspans]
      decide)
    exact ⟨enums, hparse, hkey⟩
  · exact splitAtEnd?_eq_none_iff.1 (by decide)

/-- A header without a closing word of its own swallows the next one. -/
theorem second_header_swallowed :
    LineHeader "enum A\n a\nenum B\n b\nend".toList "enum A\n a\n".toList "B".toList
      "\n b\nend".toList ∧
    ∃ enums, parse "enum A\n a\nenum B\n b\nend".toList = .ok enums ∧
      "B".toList ∉ enums.keys := by
  have hfirst : firstBlock? false "enum A\n a\nenum B\n b\nend".toList =
      some ([], ⟨"A".toList, "\n a\nenum B\n b\n".toList⟩, []) := by decide +kernel
  refine ⟨⟨⟨"enum B\n b\nend".toList, rfl, header?_eq_some_iff.1 (by decide)⟩,
    List.all_eq_true.1 (by decide)⟩, ?_⟩
  rw [parse, blocks_of_firstBlock? hfirst rfl, blocks_of_no_block rfl rfl]
  exact ⟨_, rfl, by decide⟩

end Enumeration

end OpcodeLens
