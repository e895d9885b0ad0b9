import OpcodeLens.Proofs.Enumeration.Printing

/-!
# One line or many

The body of an enumeration is read in two ways: a single line is cut at white space, by a walk that
passes over quoted values as a whole, and several lines are cut at the first `=` of each.  Items
that can be written in both forms mean the same in both.

* `Enumeration.Item` : an item that can be written in both forms.
* `Enumeration.OnOneLine`, `Enumeration.OnLines` : the two forms, with any padding between items.
* `Enumeration.splitItem_written` : the walk along a line takes one item after the other.
* `Enumeration.lineItem?_written` : so does the cut at the first `=`, line by line.
* `Enumeration.layout_does_not_matter` : **the members are the same in both forms.**
-/

namespace OpcodeLens

namespace Enumeration

/-! ### Items -/

/-- A quotation mark. -/
inductive Quote where
  /-- The mark `'`. -/
  | single
  /-- The mark `"`. -/
  | double
  deriving DecidableEq, Repr

/-- The mark as a character. -/
def Quote.char : Quote → Char
  | .single => '\''
  | .double => '"'

/-- The value of an item. -/
inductive ItemValue where
  /-- A text in quotes, without that quote and without line feeds. -/
  | quoted (quote : Quote) (content : Text) (free : quote.char ∉ content)
      (oneLine : '\n' ∉ content)
  /-- A text without blanks that does not start with a quote. -/
  | bare (text : Text) (nonempty : text ≠ []) (plain : ∀ c ∈ text, Text.isBlank c = false)
      (unquoted : ∀ q : Quote, text.head? ≠ some q.char)

/-- The value as it is written. -/
def ItemValue.text : ItemValue → Text
  | .quoted quote content _ _ => quote.char :: (content ++ [quote.char])
  | .bare text _ _ _ => text

/-- An item of an enumeration: a name, which has neither blanks nor `=` in it, and maybe a value. -/
structure Item where
  /-- Its name. -/
  name : Text
  /-- There is a name. -/
  name_ne : name ≠ []
  /-- The name can be told from what follows. -/
  name_plain : ∀ c ∈ name, Text.isBlank c = false ∧ c ≠ '='
  /-- Its value, if it has one. -/
  value : Option ItemValue := none

namespace Item

/-- The value as it is written, which is empty if there is none. -/
def valueText (item : Item) : Text := (item.value.map ItemValue.text).getD []

/-- The item as it is written: `name` or `name=value`. -/
def written (item : Item) : Text :=
  match item.value with
  | none => item.name
  | some v => item.name ++ '=' :: v.text

/-- The name and the written value. -/
def parts (item : Item) : Text × Text := (item.name, item.valueText)

end Item

/-! ### Layouts -/

/-- Spaces and tabs. -/
def IsPadding (text : Text) : Prop := ∀ c ∈ text, c = ' ' ∨ c = '\t'

/-- The items stand on one line, with padding between them and maybe around them. -/
inductive OnOneLine : List Item → Text → Prop where
  /-- A line without items. -/
  | nil {padding : Text} (hpadding : IsPadding padding) : OnOneLine [] padding
  /-- One more item in front of a line that is empty or starts with padding. -/
  | cons (item : Item) {items : List Item} {padding line : Text} (hpadding : IsPadding padding)
      (hline : OnOneLine items line) (hgap : IsPadding line.head?.toList) :
      OnOneLine (item :: items) (padding ++ (item.written ++ line))

/-- The items stand on lines of their own, maybe with padding around them and blank lines between
them. -/
inductive OnLines : List Item → List Text → Prop where
  /-- No lines. -/
  | nil : OnLines [] []
  /-- One more line without an item. -/
  | blank {items : List Item} {padding : Text} {lines : List Text} (hpadding : IsPadding padding)
      (hlines : OnLines items lines) : OnLines items (padding :: lines)
  /-- One more line with an item. -/
  | cons (item : Item) {items : List Item} {left right : Text} {lines : List Text}
      (hleft : IsPadding left) (hright : IsPadding right) (hlines : OnLines items lines) :
      OnLines (item :: items) ((left ++ (item.written ++ right)) :: lines)

theorem isPadding_nil : IsPadding [] := fun _ hc => absurd hc List.not_mem_nil

section Layout

variable {items : List Item} {line padding rest : Text} {lines : List Text} {c : Char}

/-! ### Gaps and blanks -/

theorem isGap_of_padding (h : c = ' ' ∨ c = '\t') : isGap c = true := by
  rcases h with rfl | rfl <;> decide

theorem isBlank_of_isGap (h : isGap c = true) : Text.isBlank c = true := by
  have hchar : ∀ d : Char, c = d → c.toNat = d.toNat := fun d hd => congrArg Char.toNat hd
  simp only [isGap, Bool.or_eq_true, decide_eq_true_eq] at h
  have hnat : c.toNat = 32 ∨ 9 ≤ c.toNat ∧ c.toNat ≤ 13 := by
    rcases h with (((h | h) | h) | h) | h
    · exact .inl (hchar _ h)
    · exact .inr (by rw [hchar _ h]; decide)
    · exact .inr (by rw [hchar _ h]; decide)
    · exact .inr (by omega)
    · exact .inr (by rw [hchar _ h]; decide)
  have hascii : c.toNat < 0x80 := by omega
  rw [Text.isBlank, if_pos hascii]
  rcases hnat with h | h
  · have hspace : c = ' ' := Char.ext (UInt32.toNat_inj.1 h)
    rw [hspace]
    decide
  · simp [h]

theorem isGap_eq_false (h : Text.isBlank c = false) : isGap c = false :=
  Bool.eq_false_iff.2 fun hgap => by simp [isBlank_of_isGap hgap] at h

theorem IsPadding.isBlank (h : IsPadding padding) : ∀ c ∈ padding, Text.isBlank c = true :=
  fun c hc => isBlank_of_isGap (isGap_of_padding (h c hc))

theorem IsPadding.newline_not_mem (h : IsPadding padding) : '\n' ∉ padding :=
  fun hmem => absurd (h _ hmem) (by decide)

/-! ### What is written -/

namespace ItemValue

variable (v : ItemValue)

theorem text_ne_nil : v.text ≠ [] := by
  cases v with
  | quoted quote content free oneLine => exact List.cons_ne_nil _ _
  | bare text nonempty plain unquoted => exact nonempty

theorem isBlank_quote (q : Quote) : Text.isBlank q.char = false := by
  cases q <;> decide

theorem trim_text : Text.trim v.text = v.text := by
  rw [Text.trim_eq_self_iff]
  cases v with
  | quoted quote content free oneLine =>
    rw [text, ← List.cons_append, List.getLast?_concat]
    refine ⟨?_, ?_⟩
    · rintro c ⟨⟩
      exact isBlank_quote quote
    · rintro c ⟨⟩
      exact isBlank_quote quote
  | bare text nonempty plain unquoted =>
    exact ⟨fun c hc => plain c (List.mem_of_mem_head? hc),
      fun c hc => plain c (List.mem_of_mem_getLast? hc)⟩

theorem newline_not_mem_text : '\n' ∉ v.text := by
  cases v with
  | quoted quote content free oneLine => cases quote <;> simp [text, Quote.char, oneLine]
  | bare text nonempty plain unquoted => exact fun hmem => absurd (plain _ hmem) (by decide)

/-- **The walk takes a value as a whole**, up to its closing quote or the next gap. -/
theorem splitValue_text (hrest : ∀ c ∈ rest.head?, isGap c = true) :
    splitValue (v.text ++ rest) = (v.text, rest) := by
  cases v with
  | quoted quote content free oneLine =>
    have hquote : (quote.char = '"' || quote.char = '\'') = true := by cases quote <;> rfl
    have hcontent : ∀ c ∈ content, decide (c ≠ quote.char) = true :=
      fun c hc => decide_eq_true fun heq => free (heq ▸ hc)
    have hstop : ∀ c ∈ (quote.char :: rest).head?, decide (c ≠ quote.char) = false := by
      rintro c ⟨⟩
      simp
    have htext : text (.quoted quote content free oneLine) ++ rest =
        quote.char :: (content ++ quote.char :: rest) := by simp [text]
    rw [htext, splitValue, if_pos hquote]
    dsimp only
    rw [Text.takeWhile_append_stop hcontent hstop, Text.dropWhile_append_stop hcontent hstop]
    rfl
  | bare t nonempty plain unquoted =>
    obtain ⟨c, t, rfl⟩ := List.exists_cons_of_ne_nil nonempty
    have hc : (c = '"' || c = '\'') = false := by
      have hdouble : c ≠ '"' := fun h => unquoted .double (congrArg some h)
      have hsingle : c ≠ '\'' := fun h => unquoted .single (congrArg some h)
      simp [hdouble, hsingle]
    have hrun : ∀ d ∈ c :: t, (!isGap d) = true :=
      fun d hd => by rw [isGap_eq_false (plain d hd)]; rfl
    have hstop : ∀ d ∈ rest.head?, (!isGap d) = false := fun d hd => by rw [hrest d hd]; rfl
    rw [text, List.cons_append, splitValue, if_neg (by simp [hc]), ← List.cons_append,
      Text.takeWhile_append_stop hrun hstop, Text.dropWhile_append_stop hrun hstop]

end ItemValue

namespace Item

variable (item : Item)

theorem equals_not_mem_name : '=' ∉ item.name := fun hmem => (item.name_plain _ hmem).2 rfl

theorem trim_name : Text.trim item.name = item.name := by
  rw [Text.trim_eq_self_iff]
  exact ⟨fun c hc => (item.name_plain c (List.mem_of_mem_head? hc)).1,
    fun c hc => (item.name_plain c (List.mem_of_mem_getLast? hc)).1⟩

/-- What is written starts with a character that is neither a blank nor `=`. -/
theorem exists_written_cons : ∃ c tail, item.written = c :: tail ∧ Text.isBlank c = false ∧
    c ≠ '=' := by
  obtain ⟨c, name, hname⟩ := List.exists_cons_of_ne_nil item.name_ne
  have hc := item.name_plain c (by rw [hname]; exact List.mem_cons_self)
  unfold written
  cases item.value with
  | none => exact ⟨c, name, hname, hc⟩
  | some v => exact ⟨c, name ++ '=' :: v.text, by rw [hname]; rfl, hc⟩

theorem trim_written : Text.trim item.written = item.written := by
  unfold written
  cases item.value with
  | none => exact item.trim_name
  | some v =>
    have hname := Text.trim_eq_self_iff.1 item.trim_name
    have hvalue := Text.trim_eq_self_iff.1 v.trim_text
    have heq : item.name ++ '=' :: v.text = item.name ++ ['='] ++ v.text := by simp
    dsimp only
    rw [Text.trim_eq_self_iff, List.head?_append_of_ne_nil _ item.name_ne, heq,
      List.getLast?_append_of_ne_nil _ v.text_ne_nil]
    exact ⟨hname.1, hvalue.2⟩

theorem newline_not_mem_written : '\n' ∉ item.written := by
  have hname : '\n' ∉ item.name := fun hmem => absurd (item.name_plain _ hmem).1 (by decide)
  unfold written
  cases item.value with
  | none => exact hname
  | some v => simp [hname, v.newline_not_mem_text]

end Item

/-! ### Items on one line -/

/-- **The walk takes one item off the line.**  What follows must start with a gap, and must not
start with `=` after it. -/
theorem splitItem_written (item : Item) (hgap : ∀ c ∈ rest.head?, isGap c = true)
    (hnext : ∀ c ∈ (rest.dropWhile isGap).head?, c ≠ '=') :
    splitItem (item.written ++ rest) = (item.parts, rest) := by
  have hname : ∀ c ∈ item.name, isItemNameChar c = true := by
    intro c hc
    obtain ⟨hblank, hne⟩ := item.name_plain c hc
    simp [isItemNameChar, isGap_eq_false hblank, hne]
  unfold splitItem Item.parts Item.valueText Item.written
  cases item.value with
  | none =>
    have hstop : ∀ c ∈ rest.head?, isItemNameChar c = false := by
      intro c hc
      simp [isItemNameChar, hgap c hc]
    dsimp only
    rw [Text.takeWhile_append_stop hname hstop, Text.dropWhile_append_stop hname hstop]
    split
    · next tail htail => exact absurd rfl (hnext '=' (by rw [htail]; rfl))
    · rfl
  | some v =>
    have hstop : ∀ c ∈ ('=' :: (v.text ++ rest)).head?, isItemNameChar c = false := by
      rintro c ⟨⟩
      decide
    have hequals : ('=' :: (v.text ++ rest)).dropWhile isGap = '=' :: (v.text ++ rest) :=
      List.dropWhile_cons_of_neg (by decide)
    have hvalue : (v.text ++ rest).dropWhile isGap = v.text ++ rest := by
      have hstart := (Text.trim_eq_self_iff.1 v.trim_text).1
      obtain ⟨d, tail, hd⟩ := List.exists_cons_of_ne_nil v.text_ne_nil
      rw [hd] at hstart ⊢
      exact List.dropWhile_cons_of_neg (by simp [isGap_eq_false (hstart d rfl)])
    dsimp only
    rw [List.append_assoc, List.cons_append, Text.takeWhile_append_stop hname hstop,
      Text.dropWhile_append_stop hname hstop, hequals]
    split
    · next tail htail =>
      cases htail
      rw [hvalue, v.splitValue_text hgap]
      rfl
    · next hother => exact absurd rfl (hother _)

theorem inlineItems_padding (hpadding : IsPadding padding) (rest : Text) :
    inlineItems (padding ++ rest) = inlineItems rest := by
  induction padding with
  | nil => rfl
  | cons c padding ih =>
    obtain ⟨hc, hpadding⟩ := List.forall_mem_cons.1 hpadding
    rw [List.cons_append, inlineItems, dif_pos (isGap_of_padding hc), ih hpadding]

theorem inlineItems_written (item : Item) (hgap : ∀ c ∈ rest.head?, isGap c = true)
    (hnext : ∀ c ∈ (rest.dropWhile isGap).head?, c ≠ '=') :
    inlineItems (item.written ++ rest) = item.parts :: inlineItems rest := by
  obtain ⟨c, tail, hwritten, hblank, -⟩ := item.exists_written_cons
  have hsplit := splitItem_written item hgap hnext
  rw [hwritten, List.cons_append] at hsplit ⊢
  rw [inlineItems, dif_neg (by simp [isGap_eq_false hblank]), hsplit]

/-- After its padding a line starts with the name of an item, or not at all. -/
theorem OnOneLine.ne_equals (h : OnOneLine items line) :
    ∀ c ∈ (line.dropWhile isGap).head?, c ≠ '=' := by
  cases h with
  | nil hpadding =>
    rw [List.dropWhile_eq_nil_iff.2 fun c hc => isGap_of_padding (hpadding c hc)]
    simp
  | cons item hpadding hline hgap =>
    obtain ⟨c, tail, hwritten, hblank, hne⟩ := item.exists_written_cons
    rw [List.dropWhile_append_of_pos fun c hc => isGap_of_padding (hpadding c hc), hwritten,
      List.cons_append, List.dropWhile_cons_of_neg (by simp [isGap_eq_false hblank])]
    rintro d ⟨⟩
    exact hne

/-- **The walk along a line finds its items.** -/
theorem OnOneLine.inlineItems_eq (h : OnOneLine items line) :
    inlineItems line = items.map Item.parts := by
  induction h with
  | nil hpadding =>
    have hskip := inlineItems_padding hpadding []
    rw [List.append_nil] at hskip
    rw [hskip, inlineItems, List.map_nil]
  | cons item hpadding hline hgap ih =>
    have hstart : ∀ c ∈ List.head? _, isGap c = true :=
      fun c hc => isGap_of_padding (hgap c (Option.mem_toList.2 hc))
    rw [inlineItems_padding hpadding, inlineItems_written item hstart hline.ne_equals, ih,
      List.map_cons]

theorem OnOneLine.newline_not_mem (h : OnOneLine items line) : '\n' ∉ line := by
  induction h with
  | nil hpadding => exact hpadding.newline_not_mem
  | cons item hpadding hline hgap ih =>
    simp [hpadding.newline_not_mem, item.newline_not_mem_written, ih]

theorem OnOneLine.items_eq (h : OnOneLine items line) :
    Enumeration.items line = items.map Item.parts := by
  rw [Enumeration.items, if_neg (by simp [h.newline_not_mem]), h.inlineItems_eq]

/-! ### One item a line -/

theorem lineItem?_trim (line : Text) : lineItem? (Text.trim line) = lineItem? line := by
  unfold lineItem?
  rw [Text.trim_trim]

theorem lineItem?_padding (hpadding : IsPadding padding) : lineItem? padding = none := by
  rw [← lineItem?_trim, Text.trim_eq_nil_iff.2 hpadding.isBlank]
  rfl

/-- **The item of a line is found**, whatever padding is around it. -/
theorem lineItem?_written (item : Item) {left right : Text} (hleft : IsPadding left)
    (hright : IsPadding right) : lineItem? (left ++ (item.written ++ right)) = some item.parts := by
  obtain ⟨c, tail, hwritten, -⟩ := item.exists_written_cons
  have hne : item.written ≠ [] := by simp [hwritten]
  have htrim := item.trim_written
  rw [← lineItem?_trim, Text.trim_padded hleft.isBlank hright.isBlank hne htrim]
  unfold Item.parts Item.valueText
  unfold Item.written at htrim ⊢
  cases hv : item.value with
  | none => exact lineItem?_name item.name_ne item.trim_name item.equals_not_mem_name
  | some v =>
    rw [hv] at htrim
    dsimp only at htrim ⊢
    have hend := (Text.trim_eq_self_iff.1 item.trim_name).2
    rw [lineItem?_divided htrim item.equals_not_mem_name, Text.trimEnd_eq_self_iff.2 hend,
      v.trim_text]
    rfl

theorem OnLines.filterMap_lineItem? (h : OnLines items lines) :
    lines.filterMap lineItem? = items.map Item.parts := by
  induction h with
  | nil => rfl
  | blank hpadding hlines ih => rw [List.filterMap_cons_none (lineItem?_padding hpadding), ih]
  | cons item hleft hright hlines ih =>
    rw [List.filterMap_cons_some (lineItem?_written item hleft hright), ih, List.map_cons]

theorem OnLines.newline_not_mem (h : OnLines items lines) : ∀ line ∈ lines, '\n' ∉ line := by
  induction h with
  | nil => simp
  | blank hpadding hlines ih => exact List.forall_mem_cons.2 ⟨hpadding.newline_not_mem, ih⟩
  | cons item hleft hright hlines ih =>
    refine List.forall_mem_cons.2 ⟨?_, ih⟩
    simp [hleft.newline_not_mem, item.newline_not_mem_written, hright.newline_not_mem]

/-- A single line is a line in the other sense, too. -/
theorem OnLines.onOneLine (h : OnLines items [line]) : OnOneLine items line := by
  cases h with
  | blank hpadding hlines =>
    cases hlines
    exact .nil hpadding
  | cons item hleft hright hlines =>
    cases hlines
    exact .cons item hleft (.nil hright) fun c hc =>
      hright c (List.mem_of_mem_head? (Option.mem_toList.1 hc))

/-- **The lines of a body are read one by one.** -/
theorem OnLines.items_eq (h : OnLines items lines) :
    Enumeration.items (Text.join ['\n'] lines) = items.map Item.parts := by
  match lines with
  | [] =>
    cases h
    exact (OnOneLine.nil isPadding_nil).items_eq
  | [line] => exact h.onOneLine.items_eq
  | first :: second :: rest =>
    have hmany : (Text.join ['\n'] (first :: second :: rest)).elem '\n' = true := by
      simp [Text.join]
    rw [Enumeration.items, if_pos hmany,
      Text.splitLines_join (List.cons_ne_nil _ _) h.newline_not_mem, h.filterMap_lineItem?]

/-! ### Plain layouts -/

theorem OnOneLine.space_cons (h : OnOneLine items line) : OnOneLine items (' ' :: line) := by
  have hspace : ∀ {padding : Text}, IsPadding padding → IsPadding (' ' :: padding) :=
    fun hpadding => List.forall_mem_cons.2 ⟨.inl rfl, hpadding⟩
  cases h with
  | nil hpadding => exact .nil (hspace hpadding)
  | cons item hpadding hline hgap => exact .cons item (hspace hpadding) hline hgap

theorem onOneLine_join (items : List Item) :
    OnOneLine items (Text.join [' '] (items.map Item.written)) := by
  match items with
  | [] => exact .nil isPadding_nil
  | [item] =>
    have hlast : OnOneLine [item] ([] ++ (item.written ++ [])) :=
      .cons item isPadding_nil (.nil isPadding_nil) isPadding_nil
    simpa [Text.join] using hlast
  | item :: next :: rest =>
    have hrest := (onOneLine_join (next :: rest)).space_cons
    have hmore : OnOneLine (item :: next :: rest) ([] ++ (item.written ++ _)) :=
      .cons item isPadding_nil hrest fun c hc => .inl (List.mem_singleton.1 hc)
    simpa [Text.join] using hmore

theorem onLines_map (items : List Item) : OnLines items (items.map Item.written) := by
  induction items with
  | nil => exact .nil
  | cons item items ih =>
    have hmore : OnLines (item :: items) (([] ++ (item.written ++ [])) :: items.map Item.written) :=
      .cons item isPadding_nil isPadding_nil ih
    simpa using hmore

end Layout

/-- **The members are the same in both forms.**  Items that stand on one line and items that stand
on lines of their own, with any padding around them, are read as their names and written values, so
the members, with the counter that runs through them, are the same; in particular, for items with
single spaces or single line feeds between them. -/
theorem layout_does_not_matter (items : List Item) :
    (∀ line, OnOneLine items line → membersOf line = membersFrom 0 (items.map Item.parts)) ∧
    (∀ lines, OnLines items lines →
      membersOf (Text.join ['\n'] lines) = membersFrom 0 (items.map Item.parts)) ∧
    membersOf (Text.join [' '] (items.map Item.written)) =
      membersOf (Text.join ['\n'] (items.map Item.written)) := by
  have hline : ∀ line, OnOneLine items line →
      membersOf line = membersFrom 0 (items.map Item.parts) :=
    fun line h => by rw [membersOf, h.items_eq]
  have hlines : ∀ lines, OnLines items lines →
      membersOf (Text.join ['\n'] lines) = membersFrom 0 (items.map Item.parts) :=
    fun lines h => by rw [membersOf, h.items_eq]
  exact ⟨hline, hlines, (hline _ (onOneLine_join items)).trans (hlines _ (onLines_map items)).symm⟩

/-- A member that is counted, a quoted one with a space in it, one whose value starts with `=`, and
one that starts counting again. -/
def fourItems : List Item :=
  [{ name := ['a'], name_ne := by decide, name_plain := List.forall_mem_singleton.2 (by decide) },
   { name := ['b'], name_ne := by decide, name_plain := List.forall_mem_singleton.2 (by decide)
     value := some (.quoted .double ['x', ' ', 'y'] (by decide) (by decide)) },
   { name := ['c'], name_ne := by decide, name_plain := List.forall_mem_singleton.2 (by decide)
     value := some (.bare ['=', '7'] (by decide)
       (List.forall_mem_cons.2 ⟨by decide, List.forall_mem_singleton.2 (by decide)⟩)
       (fun q => by cases q <;> decide)) },
   { name := ['d'], name_ne := by decide, name_plain := List.forall_mem_singleton.2 (by decide) }]

theorem four_items_either_way :
    OnOneLine fourItems " a b=\"x y\" c==7 d".toList ∧
    OnLines fourItems ["a".toList, "b=\"x y\"".toList, "c==7".toList, "d".toList] ∧
    membersOf " a b=\"x y\" c==7 d".toList = membersOf "a\nb=\"x y\"\nc==7\nd".toList := by
  have hjoin : ' ' :: Text.join [' '] (fourItems.map Item.written) =
      " a b=\"x y\" c==7 d".toList := by decide
  have hmap : fourItems.map Item.written =
      ["a".toList, "b=\"x y\"".toList, "c==7".toList, "d".toList] := by decide
  have hbody : Text.join ['\n'] (fourItems.map Item.written) =
      "a\nb=\"x y\"\nc==7\nd".toList := by decide
  have hline := (onOneLine_join fourItems).space_cons
  have hlines := onLines_map fourItems
  obtain ⟨hone, hmany, -⟩ := layout_does_not_matter fourItems
  rw [← hjoin, ← hmap, ← hbody]
  exact ⟨hline, hlines, (hone _ hline).trans (hmany _ hlines).symm⟩

end Enumeration

end OpcodeLens
