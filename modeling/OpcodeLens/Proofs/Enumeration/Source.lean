import OpcodeLens.Enumeration.Source
import OpcodeLens.Proofs.Text.Basic

/-!
# Reading blocks

What the readers of an enumeration source find, said without their recursions.

* `Enumeration.splitAtEnd?_eq_none_iff` : the closing word is found if it is there as a whole word.
* `Enumeration.splitAtEnd?_line` : a line without the closing word is passed over.
* `Enumeration.header?_eq_some` : a keyword, a space and a name on a line of their own are a header.
* `Enumeration.blocks_of_firstBlock?`, `Enumeration.blocks_of_no_block` : one round of the search
  for blocks.
-/

namespace OpcodeLens

namespace Enumeration

variable {inWord : Bool} {line : Nat} {text rest gap after : Text} {block : Block}

/-! ### The closing word -/

theorem startsWithEnd_iff : startsWithEnd text = true ↔
    ∃ after, text = ['e', 'n', 'd'] ++ after ∧ after.head?.any Text.isWord = false := by
  unfold startsWithEnd
  split
  · next h =>
    simp only [Bool.false_eq_true, false_iff, not_exists, not_and]
    intro after htext
    rw [Text.dropHead?_eq_some_iff.2 htext] at h
    cases h
  · next rest h =>
    obtain rfl := Text.dropHead?_eq_some_iff.1 h
    simp

/-- **The closing word is found if it is there as a whole word.** -/
theorem splitAtEnd?_eq_none_iff :
    splitAtEnd? inWord text = none ↔ ¬ Text.HasWordAfter inWord ['e', 'n', 'd'] text := by
  induction text generalizing inWord with
  | nil =>
    simp [splitAtEnd?, Text.HasWordAfter]
  | cons c rest ih =>
    have hcons : Text.HasWordAfter inWord ['e', 'n', 'd'] (c :: rest) ↔
        (inWord = false ∧ startsWithEnd (c :: rest) = true) ∨
          Text.HasWordAfter (Text.isWord c) ['e', 'n', 'd'] rest := by
      rw [startsWithEnd_iff]
      constructor
      · rintro ⟨before, after, htext, hbefore, hafter⟩
        cases before with
        | nil => exact .inl ⟨hbefore, after, htext, hafter⟩
        | cons d before =>
          obtain ⟨rfl, rfl⟩ := List.cons_eq_cons.1 htext
          rw [Text.endsInWord_cons] at hbefore
          exact .inr ⟨before, after, rfl, hbefore, hafter⟩
      · rintro (⟨rfl, after, htext, hafter⟩ | ⟨before, after, rfl, hbefore, hafter⟩)
        · exact ⟨[], after, htext, rfl, hafter⟩
        · exact ⟨c :: before, after, rfl, by rwa [Text.endsInWord_cons], hafter⟩
    rw [splitAtEnd?, hcons, not_or, ← ih]
    cases inWord <;> cases startsWithEnd (c :: rest) <;> simp

theorem splitAtEnd?_eq_some {body : Text} (h : splitAtEnd? inWord text = some (body, after)) :
    text = body ++ ['e', 'n', 'd'] ++ after ∧ Text.endsInWord inWord body = false ∧
      after.head?.any Text.isWord = false := by
  induction text generalizing inWord body with
  | nil => cases h
  | cons c rest ih =>
    rw [splitAtEnd?] at h
    split_ifs at h with hend
    · obtain ⟨hinWord, hstart⟩ := Bool.and_eq_true_iff.1 hend
      obtain ⟨tail, htail, hafter⟩ := startsWithEnd_iff.1 hstart
      rw [htail] at h ⊢
      cases h
      exact ⟨rfl, by simpa [Text.endsInWord] using hinWord, hafter⟩
    · obtain ⟨⟨body, tail⟩, hrest, heq⟩ := Option.map_eq_some_iff.1 h
      cases heq
      obtain ⟨rfl, hbody, hafter⟩ := ih hrest
      exact ⟨rfl, by rwa [Text.endsInWord_cons], hafter⟩

/-- No closing word stands before the first one. -/
theorem splitAtEnd?_body {body : Text} (h : splitAtEnd? inWord text = some (body, after)) :
    splitAtEnd? inWord body = none := by
  induction text generalizing inWord body with
  | nil => cases h
  | cons c rest ih =>
    rw [splitAtEnd?] at h
    split_ifs at h with hend
    · cases h
      rfl
    · obtain ⟨⟨body, tail⟩, hrest, heq⟩ := Option.map_eq_some_iff.1 h
      cases heq
      rw [splitAtEnd?, if_neg ?_, ih hrest]
      · rfl
      · -- a closing word of the body would be one of the text
        intro hbody
        obtain ⟨hword, hstart⟩ := Bool.and_eq_true_iff.1 hbody
        obtain ⟨more, hmore, hstop⟩ := startsWithEnd_iff.1 hstart
        obtain ⟨rfl, hends, -⟩ := splitAtEnd?_eq_some hrest
        refine hend (Bool.and_eq_true_iff.2 ⟨hword, startsWithEnd_iff.2 ?_⟩)
        cases more with
        | nil =>
          cases hmore
          exact absurd hends (by decide)
        | cons d more =>
          refine ⟨d :: more ++ ['e', 'n', 'd'] ++ after, ?_, hstop⟩
          rw [← List.cons_append, ← List.cons_append, hmore]
          simp only [List.append_assoc]

instance : DecidablePred (Text.HasWord ['e', 'n', 'd']) := fun text =>
  decidable_of_iff (splitAtEnd? false text ≠ none)
    ((not_congr splitAtEnd?_eq_none_iff).trans not_not)

theorem startsWithEnd_append_newline (text rest : Text) :
    startsWithEnd (text ++ '\n' :: rest) = startsWithEnd text := by
  unfold startsWithEnd
  rw [Text.dropHead?_append_cons (by decide)]
  cases Text.dropHead? ['e', 'n', 'd'] text with
  | none => rfl
  | some tail =>
    have hnewline : Text.isWord '\n' = false := by decide
    cases tail <;> simp [hnewline]

/-- A line without the closing word is passed over. -/
theorem splitAtEnd?_line (h : splitAtEnd? inWord text = none) (rest : Text) :
    splitAtEnd? inWord (text ++ '\n' :: rest) =
      (splitAtEnd? false rest).map fun (body, after) => (text ++ '\n' :: body, after) := by
  have hnewline : Text.isWord '\n' = false := by decide
  induction text generalizing inWord with
  | nil =>
    have hstart : startsWithEnd ('\n' :: rest) = false := by
      simp [startsWithEnd, Text.dropHead?]
    rw [List.nil_append, splitAtEnd?, hstart, hnewline]
    simp
  | cons c text ih =>
    have hstart := startsWithEnd_append_newline (c :: text) rest
    rw [List.cons_append] at hstart
    rw [splitAtEnd?] at h
    split_ifs at h with hend
    rw [List.cons_append, splitAtEnd?, hstart, if_neg hend, ih (Option.map_eq_none_iff.1 h)]
    cases splitAtEnd? false rest <;> rfl

/-! ### Headers and blocks -/

/-- The text starts with a header: the keyword, blanks and a name, which ends where `rest` starts.
-/
structure IsHeader (text name rest : Text) : Prop where
  /-- The parts of the text. -/
  eq : ∃ blanks : Text, blanks ≠ [] ∧ (∀ c ∈ blanks, Text.isBlank c = true) ∧
    text = ['e', 'n', 'u', 'm'] ++ blanks ++ name ++ rest
  /-- The name is a word. -/
  name : name ≠ [] ∧ ∀ c ∈ name, Text.isWord c = true
  /-- The name does not go on. -/
  stop : ∀ c ∈ rest.head?, Text.isWord c = false

/-- **The header that is read is the one that is there.** -/
theorem header?_eq_some_iff {name : Text} :
    header? text = some (name, rest) ↔ IsHeader text name rest := by
  constructor
  · intro h
    unfold header? at h
    split at h
    · cases h
    · next tail htail =>
      dsimp only at h
      split_ifs at h with hif
      obtain ⟨hblank, hname⟩ := Bool.and_eq_true_iff.1 hif
      cases h
      refine ⟨⟨tail.takeWhile Text.isBlank, ?_, fun c => List.mem_takeWhile_imp, ?_⟩,
        ⟨by simpa using hname, fun c => List.mem_takeWhile_imp⟩, Text.head?_dropWhile_of_not _ _⟩
      · cases tail with
        | nil => cases hblank
        | cons c tail => simp_all
      · rw [Text.dropHead?_eq_some_iff.1 htail]
        simp only [List.append_assoc, List.takeWhile_append_dropWhile]
  · rintro ⟨⟨blanks, hne, hblanks, rfl⟩, ⟨hname, hword⟩, hstop⟩
    obtain ⟨d, more, rfl⟩ := List.exists_cons_of_ne_nil hne
    have hkeyword : Text.dropHead? ['e', 'n', 'u', 'm']
        (['e', 'n', 'u', 'm'] ++ d :: more ++ name ++ rest) = some (d :: more ++ (name ++ rest)) :=
      Text.dropHead?_eq_some_iff.2 (by simp)
    -- the blanks after the keyword end where the name starts
    have hstart : ∀ c ∈ (name ++ rest).head?, Text.isBlank c = false := by
      obtain ⟨e, tail, rfl⟩ := List.exists_cons_of_ne_nil hname
      rintro c ⟨⟩
      exact Text.isBlank_of_isWord (hword e List.mem_cons_self)
    have hany : (d :: more ++ (name ++ rest)).head?.any Text.isBlank = true :=
      hblanks d List.mem_cons_self
    rw [header?, hkeyword]
    dsimp only
    rw [Text.dropWhile_append_stop hblanks hstart, Text.takeWhile_append_stop hword hstop,
      Text.dropWhile_append_stop hword hstop, hany]
    simp [hname]

theorem header?_eq_some {name : Text} (hne : name ≠ []) (hname : ∀ c ∈ name, Text.isWord c = true)
    (rest : Text) :
    header? (['e', 'n', 'u', 'm', ' '] ++ name ++ '\n' :: rest) = some (name, '\n' :: rest) := by
  refine header?_eq_some_iff.2 ⟨⟨[' '], by decide, by simp; decide, rfl⟩, ⟨hne, hname⟩, ?_⟩
  rintro c ⟨⟩
  decide

/-- The text starts with a block, which runs to the first closing word, and `after` follows it. -/
structure IsBlock (text : Text) (block : Block) (after : Text) : Prop where
  /-- The header of the block, and what follows its name. -/
  header : IsHeader text block.name (block.body ++ ['e', 'n', 'd'] ++ after)
  /-- The closing word does not go on from a word before it. -/
  body : Text.endsInWord true block.body = false
  /-- The closing word does not go on. -/
  stop : after.head?.any Text.isWord = false
  /-- There is no closing word before it. -/
  first : ¬ Text.HasWordAfter true ['e', 'n', 'd'] block.body

theorem isBlock_of_blockAt? (h : blockAt? text = some (block, after)) :
    IsBlock text block after := by
  unfold blockAt? at h
  split at h
  · cases h
  · next name rest hheader =>
    obtain ⟨⟨body, tail⟩, hsplit, heq⟩ := Option.map_eq_some_iff.1 h
    cases heq
    obtain ⟨rfl, hbody, hafter⟩ := splitAtEnd?_eq_some hsplit
    exact ⟨header?_eq_some_iff.1 hheader, hbody, hafter,
      splitAtEnd?_eq_none_iff.1 (splitAtEnd?_body hsplit)⟩

/-- A block up to its closing word. -/
theorem IsBlock.exists_opening (h : IsBlock text block after) :
    ∃ opening : Text, text = 'e' :: opening ++ ['e', 'n', 'd'] ++ after ∧
      ∀ inWord, Text.endsInWord inWord ('e' :: opening) = false := by
  obtain ⟨blanks, -, -, htext⟩ := h.header.eq
  refine ⟨['n', 'u', 'm'] ++ blanks ++ block.name ++ block.body, ?_, fun inWord => ?_⟩
  · rw [htext]
    simp only [List.append_assoc, List.cons_append, List.nil_append]
  · rw [← List.cons_append, ← List.cons_append, Text.endsInWord_append,
      Text.endsInWord_append _ _ block.name,
      Text.endsInWord_of_ne_nil _ h.header.name.1 h.header.name.2, h.body]

/-- A block ends in a word. -/
theorem IsBlock.exists_append (h : IsBlock text block after) :
    ∃ chars : Text, text = chars ++ after ∧ ∀ inWord, Text.endsInWord inWord chars = true := by
  obtain ⟨opening, htext, -⟩ := h.exists_opening
  refine ⟨'e' :: opening ++ ['e', 'n', 'd'], htext, fun inWord => ?_⟩
  rw [Text.endsInWord_append]
  exact Text.endsInWord_of_ne_nil _ (by simp) (List.all_eq_true.1 (by decide))

/-- A header is read as a block if the closing word follows it. -/
theorem IsHeader.blockAt?_ne_none {name : Text} (h : IsHeader text name rest)
    (hend : Text.HasWordAfter true ['e', 'n', 'd'] rest) : blockAt? text ≠ none := by
  rw [blockAt?, header?_eq_some_iff.2 h]
  exact fun hnone => splitAtEnd?_eq_none_iff.1 (Option.map_eq_none_iff.1 hnone) hend

theorem firstBlock?_of_blockAt? (h : blockAt? text = some (block, after)) :
    firstBlock? false text = some ([], block, after) := by
  cases text with
  | nil => cases h
  | cons c rest => simp [firstBlock?, h]

/-- No block starts within a word. -/
theorem firstBlock?_true_cons (c : Char) (rest : Text) :
    firstBlock? true (c :: rest) =
      (firstBlock? (Text.isWord c) rest).map fun (gap, block, after) =>
        (c :: gap, block, after) := rfl

/-- A round of the search that finds a block. -/
theorem blocks_of_firstBlock? (h : firstBlock? inWord text = some (gap, block, after))
    (hgap : openHeader? true line gap = none) :
    blocks inWord line text =
      (blocks true (line + (lineFeeds text - lineFeeds after)) after).map (block :: ·) := by
  rw [blocks]
  split
  · next g b a hfirst =>
    rw [h] at hfirst
    cases hfirst
    rw [hgap]
  · next hfirst =>
    rw [h] at hfirst
    cases hfirst

/-- The last round of the search. -/
theorem blocks_of_no_block (h : firstBlock? inWord text = none)
    (hheader : openHeader? true line text = none) : blocks inWord line text = .ok [] := by
  rw [blocks]
  split
  · next hfirst =>
    rw [h] at hfirst
    cases hfirst
  · rw [hheader]

/-- A round that fails: a header stands open before the block. -/
theorem blocks_of_open_gap {header : Unterminated}
    (h : firstBlock? inWord text = some (gap, block, after))
    (hgap : openHeader? true line gap = some header) :
    blocks inWord line text = .error header := by
  rw [blocks]
  split
  · next hfirst =>
    rw [h] at hfirst
    cases hfirst
    rw [hgap]
  · next hfirst =>
    rw [h] at hfirst
    cases hfirst

/-- A last round that fails. -/
theorem blocks_of_open_rest {header : Unterminated} (h : firstBlock? inWord text = none)
    (hheader : openHeader? true line text = some header) :
    blocks inWord line text = .error header := by
  rw [blocks]
  split
  · next hfirst =>
    rw [h] at hfirst
    cases hfirst
  · rw [hheader]

theorem exists_blocks_of_firstBlock? {list : List Block}
    (h : firstBlock? inWord text = some (gap, block, after))
    (hblocks : blocks inWord line text = .ok list) :
    ∃ line' rest, blocks true line' after = .ok rest ∧ list = block :: rest := by
  cases hgap : openHeader? true line gap with
  | some header =>
    rw [blocks_of_open_gap h hgap] at hblocks
    cases hblocks
  | none =>
    rw [blocks_of_firstBlock? h hgap] at hblocks
    cases hrest : blocks true (line + (lineFeeds text - lineFeeds after)) after with
    | error header =>
      rw [hrest] at hblocks
      cases hblocks
    | ok rest =>
      rw [hrest] at hblocks
      exact ⟨_, rest, hrest, (Except.ok.inj hblocks).symm⟩

theorem openHeader?_eq_none_of_blocks {list : List Block} (h : firstBlock? inWord text = none)
    (hblocks : blocks inWord line text = .ok list) :
    openHeader? true line text = none ∧ list = [] := by
  cases hheader : openHeader? true line text with
  | some header =>
    rw [blocks_of_open_rest h hheader] at hblocks
    cases hblocks
  | none =>
    rw [blocks_of_no_block h hheader] at hblocks
    exact ⟨rfl, (Except.ok.inj hblocks).symm⟩

/-- The blocks of a source that can be read. -/
theorem exists_blocks_of_parse {enums : OrderedMap Enumeration} (h : parse text = .ok enums) :
    ∃ list, blocks false 1 text = .ok list ∧
      enums = .ofList (list.map fun b => (b.name, ofBlock b)) := by
  unfold parse at h
  cases hblocks : blocks false 1 text with
  | error header =>
    rw [hblocks] at h
    cases h
  | ok list =>
    rw [hblocks] at h
    exact ⟨list, rfl, (Except.ok.inj h).symm⟩

end Enumeration

end OpcodeLens
