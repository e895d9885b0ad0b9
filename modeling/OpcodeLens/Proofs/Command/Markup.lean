import OpcodeLens.Command.Markup
import Mathlib.Tactic.Common

/-!
# Stripping undoes highlighting

`Markup.render` escapes a text character by character and marks it span by span;
`Markup.strip` removes all tags at once and then undoes the escapes in three passes over the whole
text.  The two meet in the escaped text of the whole signature.

* `Markup.dropTags_render` : without its tags, the markup of a list of spans is the escaped
  concatenation of their texts, so that no tag or escape reaches across a span boundary.
* `Markup.unescape_escapeOnly` : as long as `&` is escaped, a pass for one character undoes the
  escapes of that character and touches nothing else.  This is why `&` has to come last.
* `Markup.strip_undoes_highlighting` : **stripping gives back the text that was highlighted.**
-/

namespace OpcodeLens

namespace Markup

variable {text rest tag : Text} {c d : Char} {marked : Char → Bool}

/-! ### Tags -/

/-- A tag: some characters other than `>`, between `<` and `>`. -/
def IsTag (tag : Text) : Prop :=
  ∃ inner : Text, inner ≠ [] ∧ '>' ∉ inner ∧ tag = '<' :: (inner ++ ['>'])

theorem openTag_eq (name : Text) :
    openTag name = '<' :: (("span class=\"".toList ++ name ++ ['"']) ++ ['>']) := by
  have hopen : "<span class=\"".toList = '<' :: "span class=\"".toList := by decide
  have hclose : "\">".toList = ['"', '>'] := by decide
  unfold openTag
  -- the literals are put away before anything tries to evaluate them
  generalize "<span class=\"".toList = opening at *
  generalize "\">".toList = closing at *
  generalize "span class=\"".toList = inner at *
  subst hopen hclose
  simp

theorem isTag_openTag (kind : SpanKind) : ∀ name ∈ className? kind, IsTag (openTag name) := by
  intro name hname
  refine ⟨_, by simp, ?_, openTag_eq name⟩
  cases kind <;> cases hname <;> decide

theorem isTag_closeTag : IsTag closeTag := ⟨"/span".toList, by decide, by decide, by decide⟩

theorem afterTag?_append {inner : Text} (hne : inner ≠ []) (hgt : '>' ∉ inner) (rest : Text) :
    afterTag? (inner ++ '>' :: rest) = some rest := by
  have hdrop : (inner ++ '>' :: rest).dropWhile (· ≠ '>') = '>' :: rest := by
    have hinner : ∀ a ∈ inner, decide (a ≠ '>') = true := by
      intro a ha
      exact decide_eq_true fun h => hgt (h ▸ ha)
    rw [List.dropWhile_append_of_pos hinner]
    simp
  have hhead : (inner ++ '>' :: rest).head? ≠ some '>' := by
    cases inner with
    | nil => exact absurd rfl hne
    | cons a inner => simpa using fun h => hgt (by simp [h])
  unfold afterTag?
  rw [hdrop]
  exact if_neg hhead

/-- A tag is dropped. -/
theorem dropTags_tag (h : IsTag tag) (rest : Text) : dropTags (tag ++ rest) = dropTags rest := by
  obtain ⟨inner, hne, hgt, rfl⟩ := h
  have hafter := afterTag?_append hne hgt rest
  rw [List.cons_append, List.append_assoc, List.singleton_append, dropTags]
  simp only [if_true]
  split
  · next tail htail => rw [hafter] at htail; cases htail; rfl
  · next htail => rw [hafter] at htail; cases htail

/-- Text without `<` is kept. -/
theorem dropTags_append (h : '<' ∉ text) (rest : Text) :
    dropTags (text ++ rest) = text ++ dropTags rest := by
  induction text with
  | nil => rfl
  | cons c text ih =>
    obtain ⟨hc, htext⟩ := not_or.1 (mt List.mem_cons.2 h)
    rw [List.cons_append, dropTags, if_neg (Ne.symm hc), ih htext, List.cons_append]

theorem less_not_mem_escape (text : Text) : '<' ∉ escape text := by
  intro h
  obtain ⟨c, -, hc⟩ := List.mem_flatMap.1 h
  unfold escapeChar at hc
  split_ifs at hc with _ hlt
  · simp at hc
  · simp at hc
  · simp at hc
  · exact hlt (List.mem_singleton.1 hc).symm

theorem dropTags_renderSpan (span : Span) (rest : Text) :
    dropTags (renderSpan span ++ rest) = escape span.text ++ dropTags rest := by
  have htext := dropTags_append (less_not_mem_escape span.text)
  unfold renderSpan
  split
  · next name hname =>
    rw [List.append_assoc, List.append_assoc, dropTags_tag (isTag_openTag _ name hname), htext,
      dropTags_tag isTag_closeTag]
  · exact htext rest

theorem dropTags_flatMap_renderSpan (spans : List Span) (rest : Text) :
    dropTags (spans.flatMap renderSpan ++ rest) =
      escape (Signature.concat spans) ++ dropTags rest := by
  induction spans with
  | nil => rfl
  | cons span spans ih =>
    rw [List.flatMap_cons, List.append_assoc, dropTags_renderSpan, ih]
    simp [Signature.concat, escape, List.flatMap_append]

/-- **Without its tags, markup is the escaped text of its spans.** -/
theorem dropTags_render (spans : List Span) (isUnsupported : Bool) :
    dropTags (render spans isUnsupported) = escape (Signature.concat spans) := by
  have hnil : dropTags [] = [] := by rw [dropTags]
  cases isUnsupported with
  | false =>
    have h := dropTags_flatMap_renderSpan spans []
    rwa [hnil, List.append_nil, List.append_nil] at h
  | true =>
    have hopen : IsTag "<s>".toList := ⟨['s'], by decide, by decide, by decide⟩
    have hclose : IsTag "</s>".toList := ⟨['/', 's'], by decide, by decide, by decide⟩
    have hend : dropTags "</s>".toList = [] := by
      rw [← List.append_nil "</s>".toList, dropTags_tag hclose, hnil]
    rw [render, if_pos rfl, List.append_assoc, dropTags_tag hopen, dropTags_flatMap_renderSpan,
      hend, List.append_nil]

/-! ### Escapes -/

/-- The text with only the characters of a class escaped. -/
def escapeOnly (marked : Char → Bool) (text : Text) : Text :=
  text.flatMap fun c => if marked c then escapeChar c else [c]

theorem escapeOnly_cons : escapeOnly marked (c :: text) =
    (if marked c then escapeChar c else [c]) ++ escapeOnly marked text := rfl

/-- The characters that have an escape. -/
def IsSpecial (c : Char) : Prop := c = '&' ∨ c = '<' ∨ c = '>'

theorem escapeChar_of_not_isSpecial (h : ¬ IsSpecial c) : escapeChar c = [c] := by
  simp only [IsSpecial, not_or] at h
  simp [escapeChar, h]

/-- An escape is `&`, a name without `&`, and nothing that another escape starts with. -/
theorem dropHead?_escapeChar (hc : IsSpecial c) (hd : IsSpecial d) (rest : Text) :
    Text.dropHead? (escapeChar c) (escapeChar d ++ rest) = if d = c then some rest else none := by
  rcases hc with rfl | rfl | rfl <;> rcases hd with rfl | rfl | rfl <;>
    simp [escapeChar, Text.dropHead?]

theorem unescape_nil : unescape c [] = [] := by rw [unescape]

/-- An escape of the character is undone. -/
theorem unescape_escapeChar_self (hc : IsSpecial c) (rest : Text) :
    unescape c (escapeChar c ++ rest) = c :: unescape c rest := by
  obtain ⟨a, tail, htail⟩ := List.exists_cons_of_ne_nil (escapeChar_ne_nil c)
  have hhead := dropHead?_escapeChar hc hc rest
  rw [if_pos rfl, htail, List.cons_append] at hhead
  rw [htail, List.cons_append, unescape]
  split
  · next after hafter => rw [htail, hhead] at hafter; cases hafter; rfl
  · next hafter => rw [htail, hhead] at hafter; cases hafter

/-- What does not start with the escape of the character is passed over. -/
theorem unescape_cons_of_dropHead? (h : Text.dropHead? (escapeChar c) (d :: rest) = none) :
    unescape c (d :: rest) = d :: unescape c rest := by
  rw [unescape]
  split
  · next after hafter => rw [h] at hafter; cases hafter
  · rfl

theorem unescape_cons (hc : IsSpecial c) (hd : d ≠ '&') :
    unescape c (d :: rest) = d :: unescape c rest := by
  apply unescape_cons_of_dropHead?
  rcases hc with rfl | rfl | rfl <;> simp [escapeChar, Text.dropHead?, hd.symm]

theorem unescape_append (hc : IsSpecial c) (h : '&' ∉ text) (rest : Text) :
    unescape c (text ++ rest) = text ++ unescape c rest := by
  induction text with
  | nil => rfl
  | cons d text ih =>
    obtain ⟨hd, htext⟩ := not_or.1 (mt List.mem_cons.2 h)
    rw [List.cons_append, unescape_cons hc (Ne.symm hd), ih htext, List.cons_append]

/-- The escape of another character is passed over. -/
theorem unescape_escapeChar_of_ne (hc : IsSpecial c) (hd : IsSpecial d) (hne : d ≠ c)
    (rest : Text) : unescape c (escapeChar d ++ rest) = escapeChar d ++ unescape c rest := by
  obtain ⟨name, hname, hamp⟩ : ∃ name, escapeChar d = '&' :: name ∧ '&' ∉ name := by
    rcases hd with rfl | rfl | rfl <;> exact ⟨_, rfl, by decide⟩
  have hhead := dropHead?_escapeChar hc hd rest
  rw [if_neg hne, hname, List.cons_append] at hhead
  rw [hname, List.cons_append, unescape_cons_of_dropHead? hhead, unescape_append hc hamp,
    List.cons_append]

/-- **A pass for one character undoes its escapes and no other**, as long as `&` is escaped. -/
theorem unescape_escapeOnly (hamp : marked '&' = true) (hc : IsSpecial c) (text : Text) :
    unescape c (escapeOnly marked text) = escapeOnly (fun d => marked d && d ≠ c) text := by
  induction text with
  | nil => exact unescape_nil
  | cons d text ih =>
    rw [escapeOnly_cons, escapeOnly_cons, ← ih]
    by_cases hd : IsSpecial d
    · by_cases hm : marked d = true
      · by_cases hdc : d = c
        · subst hdc
          simp [hm, unescape_escapeChar_self hc]
        · simp [hm, hdc, unescape_escapeChar_of_ne hc hd hdc]
      · -- the character stands for itself, and it is not `&`
        have hne : d ≠ '&' := by rintro rfl; exact hm hamp
        simp [hm, unescape_cons hc hne]
    · have hne : d ≠ '&' := fun h => hd (.inl h)
      simp [escapeChar_of_not_isSpecial hd, unescape_cons hc hne]

theorem escape_eq_escapeOnly (text : Text) : escape text = escapeOnly (fun _ => true) text := by
  simp [escape, escapeOnly]

theorem escapeOnly_eq_self (h : ∀ c, IsSpecial c → marked c = false) (text : Text) :
    escapeOnly marked text = text := by
  induction text with
  | nil => rfl
  | cons c text ih =>
    rw [escapeOnly_cons, ih]
    by_cases hc : IsSpecial c
    · simp [h c hc]
    · simp [escapeChar_of_not_isSpecial hc]

/-- The three passes undo all escapes. -/
theorem unescape_escape (text : Text) :
    unescape '&' (unescape '>' (unescape '<' (escape text))) = text := by
  rw [escape_eq_escapeOnly,
    unescape_escapeOnly rfl (.inr (.inl rfl)),
    unescape_escapeOnly rfl (.inr (.inr rfl)),
    unescape_escapeOnly rfl (.inl rfl)]
  apply escapeOnly_eq_self
  rintro c (rfl | rfl | rfl) <;> rfl

/-! ### Signatures -/

theorem strip_render (spans : List Span) (isUnsupported : Bool) :
    strip (render spans isUnsupported) = Signature.concat spans := by
  rw [strip, dropTags_render, unescape_escape]

/-- A highlighted text is the markup of spans that have this text. -/
theorem exists_highlight_eq_render (signature : Text) (c : Command) (style : Style) :
    ∃ spans, highlight signature c style = render spans c.isUnsupported ∧
      Signature.concat spans = signature := by
  unfold highlight
  split_ifs with h
  · exact ⟨_, rfl, h⟩
  · exact ⟨_, rfl, by simp [Signature.concat, Signature.plainSpan]⟩

/-- **Stripping undoes highlighting.**  The markup of a list of spans, of whatever kinds and texts,
strips to the concatenation of the texts, whether it is struck out or not.  Hence a highlighted
text strips to the text itself, whether it is the signature of the command or not. -/
theorem strip_undoes_highlighting :
    (∀ (spans : List Span) (isUnsupported : Bool),
      strip (render spans isUnsupported) = spans.flatMap (·.text)) ∧
    ∀ (signature : Text) (c : Command) (style : Style),
      strip (highlight signature c style) = signature := by
  refine ⟨strip_render, fun signature c style => ?_⟩
  obtain ⟨spans, hrender, hconcat⟩ := exists_highlight_eq_render signature c style
  rw [hrender, strip_render, hconcat]

end Markup

end OpcodeLens
