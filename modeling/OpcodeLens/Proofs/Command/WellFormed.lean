import OpcodeLens.Proofs.Command.Markup

/-!
# Well-formed markup

The texts of a signature come from outside and end up in markup.  Whatever they are, the markup has
no other tags than those that were meant.

* `Markup.tags` : the tags that stand in a text.
* `Markup.Marked.append` : a tag or an escape that is complete stays so next to other text, and none
  is formed where two pieces meet.
* `Markup.tags_render` : **the tags of rendered spans** are a pair for each span that is not plain,
  within a pair for unsupported commands.
* `Markup.rendered_well_formed` : **markup is well formed**, for all spans and all commands.
-/

namespace OpcodeLens

namespace Markup

/-! ### Tags and escapes -/

/-- The classes of marked spans. -/
def classNames : List Text :=
  ["opcode-address".toList, "opcode-name".toList, "opcode-param-name".toList,
    "opcode-param-type".toList, "opcode-class-name".toList, "opcode-member-name".toList,
    "opcode-return-var-type".toList]

/-- A tag of the markup. -/
inductive Tag where
  /-- Opens struck-out text. -/
  | strike
  /-- Closes struck-out text. -/
  | endStrike
  /-- Opens a span that is marked with a class. -/
  | span (name : Text)
  /-- Closes a marked span. -/
  | endSpan
  deriving DecidableEq, Repr

/-- A tag as it stands in markup. -/
def Tag.text : Tag → Text
  | .strike => "<s>".toList
  | .endStrike => "</s>".toList
  | .span name => "<span class=\"".toList ++ name ++ "\">".toList
  | .endSpan => "</span>".toList

/-- The tags that markup may have. -/
def allTags : List Tag := [.strike, .endStrike, .endSpan] ++ classNames.map .span

/-- The escapes that markup may have. -/
def escapes : List Text := ["&amp;".toList, "&lt;".toList, "&gt;".toList]

/-- The tag that starts the text. -/
def tagAt? (text : Text) : Option Tag := allTags.find? (·.text.isPrefixOf text)

/-- The tags that stand in the text. -/
def tags : Text → List Tag
  | [] => []
  | c :: rest => (tagAt? (c :: rest)).toList ++ tags rest

/-- What a tag opens and closes. -/
inductive Element where
  /-- Struck-out text. -/
  | strike
  /-- A marked span. -/
  | span
  deriving DecidableEq, Repr

/-- The elements that are open after a tag, the innermost first.  A tag closes the innermost
element, and no span is opened within a span. -/
def Tag.nest (opened : List Element) : Tag → Option (List Element)
  | .strike => some (.strike :: opened)
  | .endStrike => if opened.head? = some .strike then some opened.tail else none
  | .span _ => if .span ∈ opened then none else some (.span :: opened)
  | .endSpan => if opened.head? = some .span then some opened.tail else none

/-- The elements that are open after some tags. -/
def nestAll (opened : List Element) (tags : List Tag) : Option (List Element) :=
  tags.foldlM Tag.nest opened

/-! ### Marks -/

variable {text : Text} {tag : Tag}

/-- Each `<` starts a tag. -/
def LessStarts (text : Text) : Prop :=
  ∀ before after, text = before ++ '<' :: after → ∃ tag ∈ allTags, tag.text <+: '<' :: after

/-- The characters of markup that are not text are those of whole tags and escapes. -/
structure Marked (text : Text) : Prop where
  /-- Each `<` starts a tag. -/
  less : LessStarts text
  /-- Each `>` ends a tag. -/
  greater : ∀ before after, text = before ++ '>' :: after →
    ∃ tag ∈ allTags, tag.text <:+ before ++ ['>']
  /-- Each `&` starts an escape. -/
  ampersand : ∀ before after, text = before ++ '&' :: after →
    ∃ escaped ∈ escapes, escaped <+: '&' :: after

instance : DecidablePred IsSpecial := fun c =>
  inferInstanceAs (Decidable (c = '&' ∨ c = '<' ∨ c = '>'))

/-- A character of two pieces stands in one of them. -/
theorem append_eq_append_cons {a b before after : Text} {c : Char}
    (h : a ++ b = before ++ c :: after) :
    (∃ more, a = before ++ c :: more ∧ after = more ++ b) ∨
      ∃ more, before = a ++ more ∧ b = more ++ c :: after := by
  rcases List.append_eq_append_iff.1 h with ⟨more, rfl, rfl⟩ | ⟨more, rfl, hmore⟩
  · exact .inr ⟨more, rfl, rfl⟩
  · cases more with
    | nil => exact .inr ⟨[], by simp, hmore.symm⟩
    | cons d more =>
      obtain ⟨rfl, rfl⟩ := List.cons_eq_cons.1 hmore
      exact .inl ⟨more, rfl, rfl⟩

theorem LessStarts.append {a b : Text} (ha : LessStarts a) (hb : LessStarts b) :
    LessStarts (a ++ b) := by
  intro before after h
  rcases append_eq_append_cons h with ⟨more, rfl, rfl⟩ | ⟨more, rfl, rfl⟩
  · obtain ⟨tag, htag, hstart⟩ := ha before more rfl
    exact ⟨tag, htag, hstart.trans (List.prefix_append ('<' :: more) b)⟩
  · exact hb more after rfl

/-- **Nothing is formed where two pieces of markup meet.** -/
theorem Marked.append {a b : Text} (ha : Marked a) (hb : Marked b) : Marked (a ++ b) := by
  refine ⟨ha.less.append hb.less, ?_, ?_⟩
  · intro before after h
    rcases append_eq_append_cons h with ⟨more, rfl, rfl⟩ | ⟨more, rfl, rfl⟩
    · exact ha.greater before more rfl
    · obtain ⟨tag, htag, hend⟩ := hb.greater more after rfl
      refine ⟨tag, htag, ?_⟩
      rw [List.append_assoc]
      exact hend.trans (List.suffix_append a _)
  · intro before after h
    rcases append_eq_append_cons h with ⟨more, rfl, rfl⟩ | ⟨more, rfl, rfl⟩
    · obtain ⟨escaped, hescaped, hstart⟩ := ha.ampersand before more rfl
      exact ⟨escaped, hescaped, hstart.trans (List.prefix_append ('&' :: more) b)⟩
    · exact hb.ampersand more after rfl

theorem marked_of_not_special (h : ∀ c ∈ text, ¬ IsSpecial c) : Marked text := by
  have hmem : ∀ {before after c}, text = before ++ c :: after → ¬ IsSpecial c := by
    rintro before after c rfl
    exact h c (by simp)
  refine ⟨?_, ?_, ?_⟩ <;> intro before after heq
  · exact absurd (.inr (.inl rfl)) (hmem heq)
  · exact absurd (.inr (.inr rfl)) (hmem heq)
  · exact absurd (.inl rfl) (hmem heq)

theorem marked_nil : Marked [] := marked_of_not_special (by simp)

theorem marked_flatMap {α : Type} {f : α → Text} (list : List α) (h : ∀ a ∈ list, Marked (f a)) :
    Marked (list.flatMap f) := by
  induction list with
  | nil => exact marked_nil
  | cons a list ih =>
    obtain ⟨ha, hlist⟩ := List.forall_mem_cons.1 h
    rw [List.flatMap_cons]
    exact ha.append (ih hlist)

/-- The shape of a tag. -/
theorem exists_inner_of_mem_allTags (h : tag ∈ allTags) :
    ∃ inner, tag.text = '<' :: (inner ++ ['>']) ∧ ∀ c ∈ inner, ¬ IsSpecial c := by
  have hshape : allTags.all fun tag =>
      decide (tag.text = '<' :: (tag.text.tail.dropLast ++ ['>'])) &&
        tag.text.tail.dropLast.all fun c => ¬ IsSpecial c := by decide
  have hinner := List.all_eq_true.1 hshape tag h
  simp only [Bool.and_eq_true, decide_eq_true_eq, List.all_eq_true] at hinner
  exact ⟨tag.text.tail.dropLast, hinner⟩

/-- A tag has special characters at its ends only. -/
theorem eq_end_of_isSpecial {inner before after : Text} {c : Char}
    (hinner : ∀ c ∈ inner, ¬ IsSpecial c) (hc : IsSpecial c)
    (heq : '<' :: (inner ++ ['>']) = before ++ c :: after) :
    c = '<' ∧ before = [] ∨ c = '>' ∧ after = [] := by
  rw [← List.singleton_append] at heq
  rcases append_eq_append_cons heq with ⟨more, hless, -⟩ | ⟨more, -, hrest⟩
  · rcases List.append_eq_singleton_iff.1 hless.symm with ⟨rfl, hmore⟩ | ⟨-, hmore⟩
    · exact .inl ⟨(List.cons_eq_cons.1 hmore).1, rfl⟩
    · cases hmore
  · rcases append_eq_append_cons hrest with ⟨more, rfl, -⟩ | ⟨more, -, hgreater⟩
    · exact absurd hc (hinner c (by simp))
    · rcases List.append_eq_singleton_iff.1 hgreater.symm with ⟨rfl, hmore⟩ | ⟨-, hmore⟩
      · exact .inr (List.cons_eq_cons.1 hmore)
      · cases hmore

theorem marked_tag (h : tag ∈ allTags) : Marked tag.text := by
  obtain ⟨inner, htext, hinner⟩ := exists_inner_of_mem_allTags h
  refine ⟨?_, ?_, ?_⟩
  · intro before after heq
    rcases eq_end_of_isSpecial hinner (.inr (.inl rfl)) (htext ▸ heq) with ⟨-, rfl⟩ | ⟨hne, -⟩
    · exact ⟨tag, h, [], by simpa using heq⟩
    · exact absurd hne (by decide)
  · intro before after heq
    rcases eq_end_of_isSpecial hinner (.inr (.inr rfl)) (htext ▸ heq) with ⟨hne, -⟩ | ⟨-, rfl⟩
    · exact absurd hne (by decide)
    · exact ⟨tag, h, [], heq⟩
  · intro before after heq
    rcases eq_end_of_isSpecial hinner (.inl rfl) (htext ▸ heq) with ⟨hne, -⟩ | ⟨hne, -⟩
    · exact absurd hne (by decide)
    · exact absurd hne (by decide)

/-- The shape of an escape. -/
theorem exists_name_of_mem_escapes {escaped : Text} (h : escaped ∈ escapes) :
    ∃ name, escaped = '&' :: name ∧ ∀ c ∈ name, ¬ IsSpecial c := by
  have hshape : escapes.all fun escaped => decide (escaped = '&' :: escaped.tail) &&
      escaped.tail.all fun c => ¬ IsSpecial c := by decide
  have hname := List.all_eq_true.1 hshape escaped h
  simp only [Bool.and_eq_true, decide_eq_true_eq, List.all_eq_true] at hname
  exact ⟨escaped.tail, hname⟩

theorem marked_escape {escaped : Text} (h : escaped ∈ escapes) : Marked escaped := by
  obtain ⟨name, hescaped, hname⟩ := exists_name_of_mem_escapes h
  have hstart : ∀ {before after c}, escaped = before ++ c :: after → IsSpecial c →
      before = [] ∧ c = '&' := by
    intro before after c heq hc
    rw [hescaped] at heq
    cases before with
    | nil => exact ⟨rfl, (List.cons_eq_cons.1 heq).1.symm⟩
    | cons d before =>
      obtain ⟨-, rfl⟩ := List.cons_eq_cons.1 heq
      exact absurd hc (hname c (by simp))
  refine ⟨?_, ?_, ?_⟩
  · intro before after heq
    exact absurd (hstart heq (.inr (.inl rfl))).2 (by decide)
  · intro before after heq
    exact absurd (hstart heq (.inr (.inr rfl))).2 (by decide)
  · intro before after heq
    obtain ⟨rfl, -⟩ := hstart heq (.inl rfl)
    exact ⟨escaped, h, [], by simpa using heq⟩

theorem marked_escapeChar (c : Char) : Marked (escapeChar c) := by
  by_cases hc : IsSpecial c
  · apply marked_escape
    rcases hc with rfl | rfl | rfl <;> decide
  · rw [escapeChar_of_not_isSpecial hc]
    exact marked_of_not_special (by simpa using hc)

theorem mem_classNames {kind : SpanKind} {name : Text} (h : className? kind = some name) :
    name ∈ classNames := by
  cases kind <;> cases h <;> decide

theorem strike_mem_allTags : Tag.strike ∈ allTags := by decide

theorem endStrike_mem_allTags : Tag.endStrike ∈ allTags := by decide

theorem endSpan_mem_allTags : Tag.endSpan ∈ allTags := by decide

theorem span_mem_allTags {kind : SpanKind} {name : Text} (h : className? kind = some name) :
    Tag.span name ∈ allTags :=
  List.mem_append_right _ (List.mem_map_of_mem (mem_classNames h))

theorem marked_renderSpan (span : Span) : Marked (renderSpan span) := by
  have htext : Marked (escape span.text) := marked_flatMap _ fun c _ => marked_escapeChar c
  unfold renderSpan
  split
  · next name hname =>
    exact ((marked_tag (span_mem_allTags hname)).append htext).append
      (marked_tag endSpan_mem_allTags)
  · exact htext

/-- **Each special character of rendered spans belongs to a tag or an escape.** -/
theorem marked_render (spans : List Span) (isUnsupported : Bool) :
    Marked (render spans isUnsupported) := by
  have hspans : Marked (spans.flatMap renderSpan) :=
    marked_flatMap spans fun span _ => marked_renderSpan span
  cases isUnsupported with
  | false => exact hspans
  | true =>
    exact ((marked_tag strike_mem_allTags).append hspans).append (marked_tag endStrike_mem_allTags)

/-! ### Nesting -/

/-- No tag starts with another one. -/
theorem eq_of_text_startsWith {other : Tag} (h : tag ∈ allTags) (hother : other ∈ allTags)
    (hstart : tag.text <+: other.text) : tag = other := by
  have hfree : allTags.all fun tag => allTags.all fun other =>
      !tag.text.isPrefixOf other.text || tag = other := by decide
  have hpair := List.all_eq_true.1 (List.all_eq_true.1 hfree tag h) other hother
  simpa [List.isPrefixOf_iff_prefix.2 hstart] using hpair

theorem mem_allTags_of_tagAt? (h : tagAt? text = some tag) :
    tag ∈ allTags ∧ tag.text <+: text := by
  have hstart : tag.text.isPrefixOf text = true :=
    List.find?_some (p := fun tag : Tag => tag.text.isPrefixOf text) h
  exact ⟨List.mem_of_find?_eq_some h, List.isPrefixOf_iff_prefix.1 hstart⟩

theorem tagAt?_eq_some_iff : tagAt? text = some tag ↔ tag ∈ allTags ∧ tag.text <+: text := by
  refine ⟨mem_allTags_of_tagAt?, ?_⟩
  rintro ⟨htag, hstart⟩
  cases hfound : tagAt? text with
  | none =>
    have hnone := List.find?_eq_none.1 hfound tag htag
    exact absurd (List.isPrefixOf_iff_prefix.2 hstart) hnone
  | some other =>
    obtain ⟨hother, hstart'⟩ := mem_allTags_of_tagAt? hfound
    rcases List.prefix_or_prefix_of_prefix hstart hstart' with hle | hle
    · rw [eq_of_text_startsWith htag hother hle]
    · rw [eq_of_text_startsWith hother htag hle]

theorem tagAt?_eq_none {c : Char} (h : c ≠ '<') (rest : Text) : tagAt? (c :: rest) = none := by
  rw [tagAt?, List.find?_eq_none]
  intro tag htag hstart
  obtain ⟨inner, htext, -⟩ := exists_inner_of_mem_allTags htag
  rw [List.isPrefixOf_iff_prefix, htext] at hstart
  exact h (List.cons_prefix_cons.1 hstart).1.symm

/-- **The tags of two pieces of markup** are those of the one and then those of the other. -/
theorem tags_append (h : LessStarts text) (rest : Text) :
    tags (text ++ rest) = tags text ++ tags rest := by
  induction text with
  | nil => rfl
  | cons c text ih =>
    have htail : LessStarts text := by
      intro before after heq
      exact h (c :: before) after (by rw [heq]; rfl)
    have hhead : tagAt? (c :: (text ++ rest)) = tagAt? (c :: text) := by
      by_cases hc : c = '<'
      · subst hc
        obtain ⟨tag, htag, hstart⟩ := h [] text rfl
        rw [tagAt?_eq_some_iff.2 ⟨htag, hstart⟩]
        exact tagAt?_eq_some_iff.2 ⟨htag, hstart.trans (List.prefix_append ('<' :: text) rest)⟩
      · rw [tagAt?_eq_none hc, tagAt?_eq_none hc]
    rw [List.cons_append, tags, tags, hhead, ih htail, List.append_assoc]

theorem tags_of_not_mem (h : '<' ∉ text) : tags text = [] := by
  induction text with
  | nil => rfl
  | cons c text ih =>
    obtain ⟨hc, htext⟩ := not_or.1 (mt List.mem_cons.2 h)
    rw [tags, tagAt?_eq_none (Ne.symm hc), ih htext]
    rfl

theorem tags_text (h : tag ∈ allTags) : tags tag.text = [tag] := by
  obtain ⟨inner, htext, hinner⟩ := exists_inner_of_mem_allTags h
  have hless : '<' ∉ inner ++ ['>'] := by
    intro hmem
    rcases List.mem_append.1 hmem with hmem | hmem
    · exact hinner '<' hmem (.inr (.inl rfl))
    · exact absurd (List.mem_singleton.1 hmem) (by decide)
  have hfound : tagAt? tag.text = some tag := tagAt?_eq_some_iff.2 ⟨h, List.prefix_refl _⟩
  rw [htext] at hfound ⊢
  rw [tags, hfound, tags_of_not_mem hless]
  rfl

/-- The tags around a span. -/
def spanTags (span : Span) : List Tag :=
  ((className? span.kind).map fun name => [.span name, .endSpan]).getD []

theorem tags_renderSpan (span : Span) : tags (renderSpan span) = spanTags span := by
  have htext : tags (escape span.text) = [] := tags_of_not_mem (less_not_mem_escape span.text)
  have hless : LessStarts (escape span.text) := by
    intro before after heq
    exact absurd (by rw [heq]; simp) (less_not_mem_escape span.text)
  unfold renderSpan spanTags
  split
  · next name hname =>
    have hopen := span_mem_allTags hname
    have hstarts : LessStarts (openTag name) := (marked_tag hopen).less
    have htag : tags (openTag name) = [.span name] := tags_text hopen
    have hend : tags closeTag = [.endSpan] := tags_text endSpan_mem_allTags
    rw [List.append_assoc, tags_append hstarts, tags_append hless, htag, htext, hend, hname]
    rfl
  · next hname => rw [htext, hname]; rfl

theorem tags_flatMap_renderSpan (spans : List Span) :
    tags (spans.flatMap renderSpan) = spans.flatMap spanTags := by
  induction spans with
  | nil => rfl
  | cons span spans ih =>
    rw [List.flatMap_cons, List.flatMap_cons, tags_append (marked_renderSpan span).less,
      tags_renderSpan, ih]

/-- **The tags of rendered spans.** -/
theorem tags_render (spans : List Span) (isUnsupported : Bool) :
    tags (render spans isUnsupported) =
      if isUnsupported then .strike :: spans.flatMap spanTags ++ [.endStrike]
      else spans.flatMap spanTags := by
  cases isUnsupported with
  | false => exact tags_flatMap_renderSpan spans
  | true =>
    have hless : LessStarts (spans.flatMap renderSpan) :=
      (marked_flatMap spans fun span _ => marked_renderSpan span).less
    have hopen : tags "<s>".toList = [.strike] := tags_text strike_mem_allTags
    have hstarts : LessStarts "<s>".toList := (marked_tag strike_mem_allTags).less
    have hclose : tags "</s>".toList = [.endStrike] := tags_text endStrike_mem_allTags
    rw [render, if_pos rfl, List.append_assoc, tags_append hstarts, tags_append hless,
      tags_flatMap_renderSpan, hopen, hclose]
    rfl

theorem nestAll_append (opened : List Element) (first rest : List Tag) :
    nestAll opened (first ++ rest) = (nestAll opened first).bind (nestAll · rest) :=
  List.foldlM_append

/-- A marked span opens and closes, where no other one is open. -/
theorem nestAll_flatMap_spanTags {opened : List Element} (h : .span ∉ opened) (spans : List Span) :
    nestAll opened (spans.flatMap spanTags) = some opened := by
  induction spans with
  | nil => rfl
  | cons span spans ih =>
    have hspan : nestAll opened (spanTags span) = some opened := by
      unfold spanTags
      cases className? span.kind with
      | none => rfl
      | some name => simp [nestAll, Tag.nest, h]
    rw [List.flatMap_cons, nestAll_append, hspan, Option.bind_some, ih]

theorem nestAll_render (spans : List Span) (isUnsupported : Bool) :
    nestAll [] (tags (render spans isUnsupported)) = some [] := by
  rw [tags_render]
  cases isUnsupported with
  | false => exact nestAll_flatMap_spanTags List.not_mem_nil spans
  | true =>
    have hspans : nestAll [.strike] (spans.flatMap spanTags) = some [.strike] :=
      nestAll_flatMap_spanTags (by decide) spans
    have hopen : nestAll [] [.strike] = some [.strike] := rfl
    rw [if_pos rfl, ← List.singleton_append, List.append_assoc, nestAll_append, hopen,
      Option.bind_some, nestAll_append, hspans]
    rfl

theorem strike_not_mem_flatMap_spanTags (spans : List Span) :
    Tag.strike ∉ spans.flatMap spanTags := by
  intro h
  obtain ⟨span, -, hspan⟩ := List.mem_flatMap.1 h
  unfold spanTags at hspan
  cases hname : className? span.kind with
  | none => simp [hname] at hspan
  | some name => simp [hname] at hspan

/-! ### Markup -/

/-- Markup without anything that was not meant: its special characters make up tags and escapes, its
tags are balanced, and it is struck out as a whole or not at all. -/
structure WellFormed (markup : Text) (isStruck : Bool) : Prop extends Marked markup where
  /-- Each tag that opens an element is closed, and no span stands within a span. -/
  nested : nestAll [] (tags markup) = some []
  /-- Struck-out text starts once at most. -/
  once : (tags markup).count .strike = if isStruck then 1 else 0
  /-- All of it is struck out, or nothing is. -/
  around : isStruck = true ↔ ∃ inner, markup = Tag.strike.text ++ inner ++ Tag.endStrike.text

theorem wellFormed_render (spans : List Span) (isUnsupported : Bool) :
    WellFormed (render spans isUnsupported) isUnsupported := by
  have hcount := List.count_eq_zero.2 (strike_not_mem_flatMap_spanTags spans)
  refine ⟨marked_render spans isUnsupported, nestAll_render spans isUnsupported, ?_, ?_⟩
  · rw [tags_render]
    cases isUnsupported with
    | false => exact hcount
    | true => simp [hcount]
  · constructor
    · rintro rfl
      exact ⟨spans.flatMap renderSpan, rfl⟩
    · rintro ⟨inner, hinner⟩
      cases isUnsupported with
      | true => rfl
      | false =>
        -- the markup would start with a tag that it does not have
        have htags : tags (render spans false) = spans.flatMap spanTags := tags_render spans false
        rw [hinner, List.append_assoc, tags_append (marked_tag strike_mem_allTags).less,
          tags_text strike_mem_allTags] at htags
        rw [← htags] at hcount
        simp at hcount

/-- **Markup is well formed.**  Whatever the texts of the spans, the markup has no tags and escapes
but whole ones of the known kinds, its tags are balanced, spans are not nested, and it is struck out
for unsupported commands only.  So is the highlighted form of every text for every command. -/
theorem rendered_well_formed :
    (∀ (spans : List Span) (isUnsupported : Bool),
      WellFormed (render spans isUnsupported) isUnsupported) ∧
    ∀ (signature : Text) (c : Command) (style : Style),
      WellFormed (highlight signature c style) c.isUnsupported := by
  refine ⟨wellFormed_render, ?_⟩
  intro signature c style
  obtain ⟨spans, hspans, -⟩ := exists_highlight_eq_render signature c style
  rw [hspans]
  exact wellFormed_render spans c.isUnsupported

end Markup

end OpcodeLens
