import OpcodeLens.Proofs.Enumeration.Source
import OpcodeLens.Proofs.OrderedMap
import OpcodeLens.Workspace.Loading

/-!
# Values are shown on one line

Whatever a source looks like, the value of a member never has a line feed in it: a member stands on
one line of its body, and a number is shown with digits, a point and a sign.

* `Number.newline_not_mem_display` : numbers.
* `Enumeration.newline_not_mem_items` : the written values of a body.
* `Enumeration.newline_not_mem_of_parse` : **the values of a source that has been read.**
* `Catalogue.Sourced` : the enumerations of a catalogue have been read from a source, as they have
  in every catalogue that is loaded (`Catalogue.sourced_of_loadWith`).
-/

namespace OpcodeLens

/-! ### Numbers -/

theorem Text.newline_not_mem_toDigits (n : Nat) : '\n' ∉ Nat.toDigits 10 n := by
  intro h
  exact absurd (Nat.isDigit_of_mem_toDigits (by decide) (by decide) h) (by decide)

theorem Text.newline_not_mem_ofInt (n : Int) : '\n' ∉ Text.ofInt n := by
  cases n with
  | ofNat n => exact newline_not_mem_toDigits n
  | negSucc n =>
    rw [Text.ofInt, List.mem_cons, not_or]
    exact ⟨by decide, newline_not_mem_toDigits (n + 1)⟩

namespace Decimal

theorem newline_not_mem_ofScaled (d : Nat) (grid : Int) : '\n' ∉ (ofScaled d grid).digits := by
  intro h
  have hsubset := List.dropWhile_subset (l := (Nat.toDigits 10 d).reverse) (· = '0')
  exact Text.newline_not_mem_toDigits d (List.mem_reverse.1 (hsubset (List.mem_reverse.1 h)))

theorem newline_not_mem_shortest (tie : Tie) (num den : Nat) :
    '\n' ∉ (shortest tie num den).digits := by
  unfold shortest
  dsimp only
  -- whichever try succeeds, and if none does, the digits are those of some scaled number
  cases htries : (List.range 17).findSome? _ with
  | none => exact newline_not_mem_ofScaled num 0
  | some d =>
    obtain ⟨i, -, hi⟩ := List.exists_of_findSome?_eq_some htries
    obtain ⟨m, -, rfl⟩ := Option.map_eq_some_iff.1 hi
    exact newline_not_mem_ofScaled m _

theorem newline_not_mem_plain {d : Decimal} (h : '\n' ∉ d.digits) : '\n' ∉ d.plain := by
  have hzeros : ∀ n, '\n' ∉ List.replicate n '0' := fun n hn =>
    absurd (List.eq_of_mem_replicate hn) (by decide)
  unfold plain
  split_ifs
  · simp [hzeros, h]
  · simp [hzeros, h]
  · simp only [List.mem_append, List.mem_cons, not_or]
    exact ⟨fun hc => h (List.mem_of_mem_take hc), by decide,
      fun hc => h (List.mem_of_mem_drop hc)⟩

end Decimal

theorem Number.newline_not_mem_display (r : Rat) : '\n' ∉ display r := by
  unfold display writeBy
  have hplain := Decimal.newline_not_mem_plain
    (Decimal.newline_not_mem_shortest .up r.num.natAbs r.den)
  split_ifs
  · exact Text.newline_not_mem_ofInt r.num
  · simp [hplain]
  · exact hplain

namespace Enumeration

/-! ### Items -/

theorem splitValue_subset (text : Text) :
    (splitValue text).1 ⊆ text ∧ (splitValue text).2 ⊆ text := by
  cases text with
  | nil => simp [splitValue]
  | cons c rest =>
    rw [splitValue]
    split_ifs
    · have htail : rest.dropWhile (· ≠ c) ⊆ c :: rest :=
        List.Subset.trans (List.dropWhile_subset _) (List.subset_cons_self c rest)
      constructor
      · simp only [List.cons_append, List.cons_subset, List.append_subset]
        refine ⟨List.mem_cons_self, ?_, ?_⟩
        · exact List.Subset.trans (List.takeWhile_subset _) (List.subset_cons_self c rest)
        · exact List.Subset.trans (List.take_subset _ _) htail
      · exact List.Subset.trans (List.drop_subset _ _) htail
    · exact ⟨List.takeWhile_subset _, List.dropWhile_subset _⟩

theorem splitItem_subset (text : Text) :
    (splitItem text).1.2 ⊆ text ∧ (splitItem text).2 ⊆ text := by
  have hrest := List.dropWhile_subset (l := text) isItemNameChar
  unfold splitItem
  dsimp only
  split
  · next tail htail =>
    -- the value is cut from what follows the `=`
    have hgap := List.dropWhile_subset (l := text.dropWhile isItemNameChar) isGap
    rw [htail, List.cons_subset] at hgap
    have hvalue : tail.dropWhile isGap ⊆ text :=
      List.Subset.trans (List.dropWhile_subset _) (List.Subset.trans hgap.2 hrest)
    obtain ⟨hfst, hsnd⟩ := splitValue_subset (tail.dropWhile isGap)
    exact ⟨List.Subset.trans hfst hvalue, List.Subset.trans hsnd hvalue⟩
  · exact ⟨List.nil_subset _, hrest⟩

theorem inlineItems_subset {text : Text} {item : Text × Text} (h : item ∈ inlineItems text) :
    item.2 ⊆ text := by
  fun_induction inlineItems text with
  | case1 => cases h
  | case2 c rest hgap ih => exact List.Subset.trans (ih h) (List.subset_cons_self c rest)
  | case3 c rest hgap ih =>
    obtain ⟨hfst, hsnd⟩ := splitItem_subset (c :: rest)
    rcases List.mem_cons.1 h with rfl | h
    · exact hfst
    · exact List.Subset.trans (ih h) hsnd

theorem lineItem?_subset {line : Text} {item : Text × Text} (h : lineItem? line = some item) :
    item.2 ⊆ line := by
  have htrim := Text.trim_subset line
  unfold lineItem? at h
  dsimp only at h
  split_ifs at h
  split at h
  · next name value hsplit =>
    cases h
    have hvalue : value ⊆ Text.trim line := by
      rw [Text.eq_append_of_splitFirst? hsplit]
      exact List.Subset.trans (List.subset_cons_self _ _) (List.subset_append_right _ _)
    exact List.Subset.trans (Text.trim_subset value) (List.Subset.trans hvalue htrim)
  · cases h
    exact List.nil_subset _

/-- A member stands on one line of its body. -/
theorem newline_not_mem_items {body : Text} {item : Text × Text} (h : item ∈ items body) :
    '\n' ∉ item.2 := by
  unfold items at h
  split_ifs at h with hbody
  · obtain ⟨line, hline, hitem⟩ := List.mem_filterMap.1 h
    exact fun hc => Text.newline_not_mem_of_mem_splitLines hline (lineItem?_subset hitem hc)
  · exact fun hc => hbody (by simpa using inlineItems_subset h hc)

/-! ### Values -/

theorem newline_not_mem_assign (counter : Rat) {written : Text} (h : '\n' ∉ written) :
    '\n' ∉ (assign counter written).1.display := by
  unfold assign
  split
  · exact Number.newline_not_mem_display counter
  · next c rest =>
    split_ifs
    · -- a quoted value
      obtain ⟨hc, hrest⟩ := not_or.1 (mt List.mem_cons.2 h)
      change '\n' ∉ Text.dropLastIf c rest
      unfold Text.dropLastIf
      split_ifs
      · exact fun hd => hrest ((List.dropLast_prefix rest).subset hd)
      · exact hrest
    · split
      · next r _ => exact Number.newline_not_mem_display r
      · exact h

theorem newline_not_mem_membersFrom {counter : Rat} {items : List (Text × Text)}
    (h : ∀ item ∈ items, '\n' ∉ item.2) :
    ∀ m ∈ membersFrom counter items, '\n' ∉ m.value.display := by
  induction items generalizing counter with
  | nil => simp [membersFrom]
  | cons item rest ih =>
    obtain ⟨name, written⟩ := item
    rw [List.forall_mem_cons] at h
    rw [membersFrom, List.forall_mem_cons]
    exact ⟨newline_not_mem_assign counter h.1, ih h.2⟩

/-- **No value of a source has a line feed in it.** -/
theorem newline_not_mem_of_parse {source name : Text} {enums : OrderedMap Enumeration}
    {e : Enumeration} (h : parse source = .ok enums) (he : enums.get? name = some e) :
    ∀ m ∈ e.members, '\n' ∉ m.value.display := by
  obtain ⟨list, -, rfl⟩ := exists_blocks_of_parse h
  rw [OrderedMap.get?_ofList] at he
  obtain ⟨entry, hlast, rfl⟩ := Option.map_eq_some_iff.1 he
  obtain ⟨block, -, rfl⟩ := List.mem_map.1 (List.mem_filter.1 (List.mem_of_getLast? hlast)).1
  exact newline_not_mem_membersFrom fun item => newline_not_mem_items

end Enumeration

/-! ### Catalogues -/

/-- The enumerations of the catalogue have been read from a source. -/
def Catalogue.Sourced (cat : Catalogue) : Prop :=
  ∃ source, Enumeration.parse source = .ok cat.enums

theorem Catalogue.Sourced.newline_not_mem {cat : Catalogue} {owner member : Text}
    {e : Enumeration.Member} (h : cat.Sourced) (he : cat.enumMember? owner member = some e) :
    '\n' ∉ e.value.display := by
  obtain ⟨source, hsource⟩ := h
  obtain ⟨enum, henum, hmember⟩ := Option.bind_eq_some_iff.1 he
  exact Enumeration.newline_not_mem_of_parse hsource henum e (List.mem_of_find?_eq_some hmember)

namespace Catalogue

theorem exists_source_of_parseEnums {text : Option Text}
    {enums : Option (OrderedMap Enumeration)} (h : parseEnums text = .ok enums) :
    ∃ source, Enumeration.parse source = .ok (enums.getD {}) := by
  cases text with
  | none =>
    cases h
    refine ⟨[], ?_⟩
    rw [Enumeration.parse, Enumeration.blocks_of_no_block rfl rfl]
    rfl
  | some source =>
    refine ⟨source, ?_⟩
    rw [parseEnums] at h
    cases hparse : Enumeration.parse source with
    | error e =>
      rw [hparse] at h
      cases h
    | ok map =>
      rw [hparse] at h
      cases h
      rfl

theorem exists_of_bind_eq_ok {α β : Type} {x : Except LoadError α} {f : α → Except LoadError β}
    {b : β} (h : x >>= f = .ok b) : ∃ a, x = .ok a ∧ f a = .ok b := by
  cases x with
  | error e => cases h
  | ok a => exact ⟨a, rfl, h⟩

/-- **The enumerations of a catalogue that is loaded have been read from a source**, which is empty
if the file is not there. -/
theorem sourced_of_loadWith {readDefinitions readEnums : Reader} {selection : Selection}
    {cat : Catalogue} (h : loadWith readDefinitions readEnums selection = .ok cat) :
    cat.Sourced := by
  rw [loadWith] at h
  obtain ⟨text, -, h⟩ := exists_of_bind_eq_ok h
  obtain ⟨document, -, h⟩ := exists_of_bind_eq_ok h
  obtain ⟨enumsText, -, h⟩ := exists_of_bind_eq_ok h
  obtain ⟨enums, henums, h⟩ := exists_of_bind_eq_ok h
  cases h
  rw [Sourced]
  split_ifs <;> exact exists_source_of_parseEnums henums

end Catalogue

end OpcodeLens
