import OpcodeLens.Enumeration.Members
import OpcodeLens.Proofs.Text.WordRun
import Mathlib.Data.List.Forall2

/-!
# The walk along a line

The items of a line are cut off one by one.  A turn of the walk passes over white space, takes a
name and, if an `=` follows, passes over the `=` with the white space around it and takes a value.
What a turn takes is put together again here, so that nothing of the line is lost, and it is located
in the bytes of the line.

* `Enumeration.Turn` : what one turn takes, and `Enumeration.exists_turn` : a turn takes just that.
* `Enumeration.exists_turns` : **the turns of a walk make up the line**, but for white space at its
  end.
* `Enumeration.Place` : where the name, the `=` and the value of an item stand.
* `Enumeration.walk_loses_nothing` : **the walk moves on with every turn, its slices follow one
  another, and each byte that is no white space is in one of them or is the `=` between two.**
-/

namespace OpcodeLens

namespace Enumeration

variable {line before rest : Text} {c : Char} {i : Nat}

/-! ### White space -/

theorem utf8Size_of_isGap (h : isGap c = true) : c.utf8Size = 1 := by
  simp only [isGap, Bool.or_eq_true, decide_eq_true_eq] at h
  rcases h with (((rfl | rfl) | rfl) | h) | rfl
  · rfl
  · rfl
  · rfl
  · exact Text.utf8Size_eq_one ((Nat.le_of_eq h).trans_lt (by decide))
  · rfl

theorem bytewise_isGap : Text.Bytewise isGap :=
  Text.OneByte.bytewise fun _ => utf8Size_of_isGap

/-! ### Turns -/

/-- A name on a line: a text without white space and without `=`. -/
def IsItemName (name : Text) : Prop := ∀ c ∈ name, isItemNameChar c = true

/-- A value on a line: a text without white space, or a quote and what follows it, up to the same
quote or without another one. -/
def IsItemValue (value : Text) : Prop :=
  (∀ c ∈ value, isGap c = false) ∨ ∃ quote content, (quote = '"' ∨ quote = '\'') ∧
    quote ∉ content ∧ (value = quote :: content ∨ value = quote :: (content ++ [quote]))

/-- What the walk along a line takes in one turn. -/
structure Turn where
  /-- The white space before the item. -/
  gap : Text
  /-- The name of the item. -/
  name : Text
  /-- The white space on both sides of the `=`, if there is one. -/
  divider : Option (Text × Text)
  /-- The value of the item. -/
  value : Text
  /-- The name is one. -/
  isItemName : IsItemName name
  /-- The value is one. -/
  isItemValue : IsItemValue value
  /-- There is only white space before the item. -/
  gap_isGap : ∀ c ∈ gap, isGap c = true
  /-- There is only white space around the `=`. -/
  divider_isGap : ∀ d ∈ divider, ∀ c ∈ d.1 ++ d.2, isGap c = true
  /-- Without an `=` there is a name and no value. -/
  undivided : divider = none → name ≠ [] ∧ value = []

namespace Turn

/-- The name and the value. -/
def item (t : Turn) : Text × Text := (t.name, t.value)

/-- The stretch between the name and the value. -/
def middle (t : Turn) : Text :=
  match t.divider with
  | none => []
  | some (left, right) => left ++ '=' :: right

/-- All that is taken. -/
def written (t : Turn) : Text := t.gap ++ t.name ++ t.middle ++ t.value

/-- The same turn after one more character of white space. -/
def cons (c : Char) (hc : isGap c = true) (t : Turn) : Turn :=
  { t with gap := c :: t.gap, gap_isGap := List.forall_mem_cons.2 ⟨hc, t.gap_isGap⟩ }

end Turn

theorem splitValue_append (text : Text) : (splitValue text).1 ++ (splitValue text).2 = text := by
  cases text with
  | nil => rfl
  | cons c rest =>
    rw [splitValue]
    split_ifs
    · simp only [List.cons_append, List.append_assoc, List.take_append_drop,
        List.takeWhile_append_dropWhile]
    · exact List.takeWhile_append_dropWhile

theorem isItemValue_splitValue (text : Text) : IsItemValue (splitValue text).1 := by
  cases text with
  | nil => exact .inl (List.forall_mem_nil _)
  | cons c rest =>
    rw [splitValue]
    split_ifs with hquote
    · simp only [Bool.or_eq_true, decide_eq_true_eq] at hquote
      have hfree : c ∉ rest.takeWhile (· ≠ c) := fun hmem => by
        simpa using List.mem_takeWhile_imp hmem
      refine .inr ⟨c, rest.takeWhile (· ≠ c), hquote, hfree, ?_⟩
      cases htail : rest.dropWhile (· ≠ c) with
      | nil => exact .inl (List.append_nil _)
      | cons d tail =>
        have hd := Text.head?_dropWhile_of_not (· ≠ c) rest d (by rw [htail]; rfl)
        obtain rfl : d = c := by simpa using hd
        exact .inr rfl
    · refine .inl fun d hd => ?_
      simpa using List.mem_takeWhile_imp hd

theorem isItemNameChar_eq_false (hc : isGap c = false) (h : isItemNameChar c = false) :
    c = '=' := by
  simpa [isItemNameChar, hc] using h

/-- **A turn takes an item with an `=` and the white space around it, or a name.** -/
theorem exists_turn (hc : isGap c = false) : ∃ t : Turn,
    (splitItem (c :: rest)).1 = t.item ∧ c :: rest = t.written ++ (splitItem (c :: rest)).2 := by
  have hname := List.takeWhile_append_dropWhile (p := isItemNameChar) (l := c :: rest)
  unfold splitItem
  dsimp only
  split
  · next tail htail =>
    have hleft := List.takeWhile_append_dropWhile (p := isGap)
      (l := (c :: rest).dropWhile isItemNameChar)
    have hright := List.takeWhile_append_dropWhile (p := isGap) (l := tail)
    have hvalue := splitValue_append (tail.dropWhile isGap)
    refine ⟨⟨[], (c :: rest).takeWhile isItemNameChar,
      some (((c :: rest).dropWhile isItemNameChar).takeWhile isGap, tail.takeWhile isGap),
      (splitValue (tail.dropWhile isGap)).1, fun a ha => List.mem_takeWhile_imp ha,
      isItemValue_splitValue _, by simp, ?_, by simp⟩, rfl, ?_⟩
    · rintro d ⟨⟩ a ha
      rcases List.mem_append.1 ha with ha | ha
      · exact List.mem_takeWhile_imp ha
      · exact List.mem_takeWhile_imp ha
    · rw [htail] at hleft
      nth_rewrite 1 [← hname, ← hleft, ← hright, ← hvalue]
      simp only [Turn.written, Turn.middle, List.nil_append, List.append_assoc, List.cons_append]
  · next hother =>
    refine ⟨⟨[], (c :: rest).takeWhile isItemNameChar, none, [],
      fun a ha => List.mem_takeWhile_imp ha, .inl (List.forall_mem_nil _), by simp, by simp,
      fun _ => ⟨fun hnil => ?_, rfl⟩⟩, rfl, ?_⟩
    · -- without a name the walk stands at an `=`
      have hc' : isItemNameChar c = false := by
        rw [← Bool.not_eq_true]
        intro hname
        rw [List.takeWhile_cons_of_pos hname] at hnil
        cases hnil
      obtain rfl := isItemNameChar_eq_false hc hc'
      refine hother rest ?_
      rw [List.dropWhile_cons_of_neg (by decide), List.dropWhile_cons_of_neg (by decide)]
    · nth_rewrite 1 [← hname]
      simp only [Turn.written, Turn.middle, List.nil_append, List.append_nil]

/-- **The turns of a walk make up the line**, but for white space at its end. -/
theorem exists_turns (line : Text) : ∃ (turns : List Turn) (tail : Text),
    line = turns.flatMap Turn.written ++ tail ∧ (∀ c ∈ tail, isGap c = true) ∧
      inlineItems line = turns.map Turn.item := by
  fun_induction inlineItems line with
  | case1 => exact ⟨[], [], rfl, by simp, rfl⟩
  | case2 c rest hc ih =>
    obtain ⟨turns, tail, hrest, htail, hitems⟩ := ih
    cases turns with
    | nil =>
      refine ⟨[], c :: tail, ?_, List.forall_mem_cons.2 ⟨hc, htail⟩, hitems⟩
      rw [hrest]
      rfl
    | cons t turns =>
      refine ⟨t.cons c hc :: turns, tail, ?_, htail, hitems⟩
      rw [hrest]
      rfl
  | case3 c rest hc ih =>
    obtain ⟨turns, tail, hrest, htail, hitems⟩ := ih
    obtain ⟨t, hitem, htext⟩ := exists_turn (by simpa using hc)
    refine ⟨t :: turns, tail, ?_, htail, ?_⟩
    · rw [List.flatMap_cons, List.append_assoc, ← hrest]
      exact htext
    · rw [hitem, hitems, List.map_cons]

/-! ### Places -/

/-- Where an item stands on a line, in bytes. -/
structure Place where
  /-- The bytes of its name. -/
  name : ByteRange
  /-- The offset of its `=`, if it has one. -/
  equals : Option Nat
  /-- The bytes of its value.  Without an `=` there are none, right after the name. -/
  value : ByteRange

namespace Place

/-- Where the turn that takes the item ends. -/
def stop (p : Place) : Nat := p.value.stop

/-- The slices that are taken. -/
def slices (p : Place) : List ByteRange := [p.name, p.value]

/-- How many of the slices have the byte in them, with the `=` as one more slice. -/
def hits (i : Nat) (places : List Place) : Nat :=
  (places.flatMap slices).countP (fun s => decide (s.start ≤ i ∧ i < s.stop)) +
    (places.filterMap equals).count i

/-- The place is that of the item: both slices can be taken, they are the name and the value, and
there is either an `=` somewhere between them or no value. -/
structure Holds (line : Text) (p : Place) (item : Text × Text) : Prop where
  /-- The item has a name as names are on a line. -/
  isItemName : IsItemName item.1
  /-- It has a value as values are. -/
  isItemValue : IsItemValue item.2
  /-- The name stands at its place. -/
  name : line.IsSlice p.name item.1
  /-- So does the value. -/
  value : line.IsSlice p.value item.2
  /-- There is no value without an `=`. -/
  bare : p.equals = none → item.2 = []
  /-- The `=` stands between the name and the value. -/
  divided : ∀ e ∈ p.equals, p.name.stop ≤ e ∧ e < p.value.start ∧
    line.utf8[e]? = some '='.toUInt8

end Place

namespace Turn

/-- The place of the item of a turn that starts at the offset. -/
def place (offset : Nat) (t : Turn) : Place :=
  let name := offset + t.gap.byteLength
  let equals := name + t.name.byteLength
  let value := equals + t.middle.byteLength
  ⟨⟨name, equals⟩, t.divider.map fun d => equals + Text.byteLength d.1,
    ⟨value, value + t.value.byteLength⟩⟩

/-- The places of the items of turns, the first of which starts at the offset. -/
def places (offset : Nat) : List Turn → List Place
  | [] => []
  | t :: turns => t.place offset :: places (offset + t.written.byteLength) turns

theorem middle_of_divider (t : Turn) {left right : Text} (h : t.divider = some (left, right)) :
    t.middle = left ++ '=' :: right := by
  rw [middle, h]

theorem byteLength_middle (t : Turn) {left right : Text} (h : t.divider = some (left, right)) :
    t.middle.byteLength = Text.byteLength left + 1 + Text.byteLength right := by
  rw [t.middle_of_divider h, Text.byteLength_append, Nat.add_assoc]
  rfl

theorem place_stop (offset : Nat) (t : Turn) :
    (t.place offset).stop = offset + t.written.byteLength := by
  simp only [place, Place.stop, written, Text.byteLength_append]
  omega

/-- **A turn moves on.** -/
theorem written_pos (t : Turn) : 0 < t.written.byteLength := by
  have hlength := Text.length_le_byteLength t.written
  have hne : t.written ≠ [] := by
    cases hdivider : t.divider with
    | none => simp [written, (t.undivided hdivider).1]
    | some d => simp [written, middle, hdivider]
  have := List.length_pos_iff.2 hne
  omega

variable {t : Turn} {turns : List Turn}

/-- The parts of a turn follow one another. -/
theorem place_ordered (offset : Nat) (t : Turn) :
    offset ≤ (t.place offset).name.start ∧
      (t.place offset).name.start ≤ (t.place offset).name.stop ∧
      (t.place offset).name.stop ≤ (t.place offset).value.start ∧
      (t.place offset).value.start ≤ (t.place offset).value.stop ∧
      ∀ e ∈ (t.place offset).equals, (t.place offset).name.stop ≤ e ∧
        e < (t.place offset).value.start := by
  refine ⟨Nat.le_add_right _ _, Nat.le_add_right _ _, Nat.le_add_right _ _, Nat.le_add_right _ _,
    fun e he => ?_⟩
  obtain ⟨⟨left, right⟩, hdivider, rfl⟩ := Option.map_eq_some_iff.1 he
  have hlength := t.byteLength_middle hdivider
  dsimp only [place]
  omega

/-- The two slices of a turn, and the `=` between them. -/
theorem holds_place (before after : Text) (t : Turn) :
    (t.place before.byteLength).Holds (before ++ t.written ++ after) t.item where
  isItemName := t.isItemName
  isItemValue := t.isItemValue
  name := by
    have hslice := Text.isSlice_append (before ++ t.gap) t.name (t.middle ++ t.value ++ after)
    rw [Text.byteLength_append] at hslice
    have htext : before ++ t.gap ++ t.name ++ (t.middle ++ t.value ++ after) =
        before ++ t.written ++ after := by simp only [written, List.append_assoc]
    rwa [htext] at hslice
  value := by
    have hslice := Text.isSlice_append (before ++ t.gap ++ t.name ++ t.middle) t.value after
    simp only [Text.byteLength_append] at hslice
    have htext : before ++ t.gap ++ t.name ++ t.middle ++ t.value ++ after =
        before ++ t.written ++ after := by simp only [written, List.append_assoc]
    rwa [htext] at hslice
  bare h := (t.undivided (Option.map_eq_none_iff.1 h)).2
  divided := by
    intro e he
    obtain ⟨⟨left, right⟩, hdivider, rfl⟩ := Option.map_eq_some_iff.1 he
    have hordered := (t.place_ordered before.byteLength).2.2.2.2 _ he
    refine ⟨hordered.1, hordered.2, (Text.getElem?_utf8_eq_some_iff (by decide)).2
      ⟨before ++ t.gap ++ t.name ++ left, right ++ t.value ++ after, ?_, ?_⟩⟩
    · have hequals : Char.ofUInt8 '='.toUInt8 = '=' := by decide
      rw [written, t.middle_of_divider hdivider, hequals]
      simp only [List.append_assoc, List.cons_append]
    · simp only [Text.byteLength_append]

end Turn

namespace Place

theorem hits_cons (i : Nat) (p : Place) (places : List Place) :
    hits i (p :: places) = hits i [p] + hits i places := by
  rw [← List.singleton_append, hits, hits, hits, List.flatMap_append, List.countP_append,
    List.filterMap_append, List.count_append]
  omega

theorem hits_singleton (i : Nat) (p : Place) :
    hits i [p] = (if p.name.start ≤ i ∧ i < p.name.stop then 1 else 0) +
      (if p.value.start ≤ i ∧ i < p.value.stop then 1 else 0) +
      if p.equals = some i then 1 else 0 := by
  have hslices : ([p].flatMap slices).countP (fun s => decide (s.start ≤ i ∧ i < s.stop)) =
      (if p.name.start ≤ i ∧ i < p.name.stop then 1 else 0) +
        if p.value.start ≤ i ∧ i < p.value.stop then 1 else 0 := by
    simp only [List.flatMap_singleton, slices, List.countP_cons, List.countP_nil,
      decide_eq_true_eq]
    omega
  rw [hits, hslices]
  cases hequals : p.equals with
  | none => simp [hequals]
  | some e => simp [hequals, List.count_singleton]

end Place

namespace Turn

variable {t : Turn} {turns : List Turn} {offset : Nat}

/-- A turn has no part in the bytes before and after it. -/
theorem hits_place_eq_zero (h : i < offset ∨ offset + t.written.byteLength ≤ i) :
    Place.hits i [t.place offset] = 0 := by
  obtain ⟨hstart, hname, hmiddle, hvalue, hequals⟩ := t.place_ordered offset
  have hstop : (t.place offset).value.stop = offset + t.written.byteLength := t.place_stop offset
  have hne : (t.place offset).equals ≠ some i := fun he => by
    have := hequals i he
    omega
  rw [Place.hits_singleton, if_neg (by omega), if_neg (by omega), if_neg hne]

theorem isGap_of_mem_utf8 {gap : Text} {b : UInt8} (hgap : ∀ c ∈ gap, isGap c = true)
    (hb : b ∈ gap.utf8) : isGap (Char.ofUInt8 b) = true := by
  obtain ⟨c, hc, hbc⟩ := List.mem_flatMap.1 hb
  rw [bytewise_isGap c b hbc, hgap c hc]

/-- The bytes of white space are white space. -/
theorem isGap_of_getElem? {before gap after : Text} {b : UInt8} (hgap : ∀ c ∈ gap, isGap c = true)
    (hbyte : (before ++ gap ++ after).utf8[i]? = some b) (hlo : before.byteLength ≤ i)
    (hhi : i < before.byteLength + gap.byteLength) : isGap (Char.ofUInt8 b) = true := by
  obtain ⟨k, rfl⟩ := Nat.exists_eq_add_of_le hlo
  rw [Text.getElem?_utf8_append before gap after (by omega)] at hbyte
  exact isGap_of_mem_utf8 hgap (List.mem_of_getElem? hbyte)

/-- **Each byte of a turn that is no white space is in its name or its value or is its `=`.** -/
theorem hits_place_eq_one {before after : Text} {b : UInt8}
    (hbyte : (before ++ t.written ++ after).utf8[i]? = some b)
    (hb : isGap (Char.ofUInt8 b) = false) (hlo : before.byteLength ≤ i)
    (hhi : i < before.byteLength + t.written.byteLength) :
    Place.hits i [t.place before.byteLength] = 1 := by
  -- the byte is not in a stretch of white space
  have houtside : ∀ left gap right : Text, (∀ c ∈ gap, isGap c = true) →
      before ++ t.written ++ after = left ++ gap ++ right →
      ¬ (left.byteLength ≤ i ∧ i < left.byteLength + gap.byteLength) := by
    intro left gap right hgap htext hi
    rw [htext] at hbyte
    rw [isGap_of_getElem? hgap hbyte hi.1 hi.2] at hb
    cases hb
  have hgap := houtside before t.gap (t.name ++ t.middle ++ t.value ++ after) t.gap_isGap
    (by simp only [written, List.append_assoc])
  have hwritten : t.written.byteLength = t.gap.byteLength + t.name.byteLength +
      t.middle.byteLength + t.value.byteLength := by
    simp only [written, Text.byteLength_append]
  rw [Place.hits_singleton]
  cases hdivider : t.divider with
  | none =>
    have hvalue : t.value.byteLength = 0 := by rw [(t.undivided hdivider).2]; rfl
    have hmiddle : t.middle.byteLength = 0 := by rw [middle, hdivider]; rfl
    simp only [place, hdivider, Option.map_none]
    rw [if_pos (by omega), if_neg (by omega), if_neg (by simp)]
  | some divider =>
    obtain ⟨left, right⟩ := divider
    have hmiddle := t.byteLength_middle hdivider
    obtain ⟨hgapLeft, hgapRight⟩ := List.forall_mem_append.1 (t.divider_isGap _ hdivider)
    have hleft := houtside (before ++ t.gap ++ t.name) left ('=' :: right ++ t.value ++ after)
      hgapLeft (by simp only [written, t.middle_of_divider hdivider, List.append_assoc,
        List.cons_append])
    have hright := houtside (before ++ t.gap ++ t.name ++ left ++ ['=']) right (t.value ++ after)
      hgapRight (by simp only [written, t.middle_of_divider hdivider, List.append_assoc,
        List.cons_append, List.nil_append])
    have hone : Text.byteLength ['='] = 1 := by decide
    simp only [Text.byteLength_append, hone] at hleft hright
    simp only [place, hdivider, Option.map_some, Option.some_inj]
    split_ifs <;> omega

variable {tail : Text}

theorem hits_places_eq_zero (h : i < offset) : Place.hits i (places offset turns) = 0 := by
  induction turns generalizing offset with
  | nil => rfl
  | cons t turns ih =>
    rw [places, Place.hits_cons, hits_place_eq_zero (.inl h), ih (Nat.lt_add_right _ h)]

/-- **Each byte that is no white space is taken once.** -/
theorem hits_places_eq_one {b : UInt8} (htail : ∀ c ∈ tail, isGap c = true)
    (hbyte : (before ++ turns.flatMap written ++ tail).utf8[i]? = some b)
    (hb : isGap (Char.ofUInt8 b) = false) (hlo : before.byteLength ≤ i) :
    Place.hits i (places before.byteLength turns) = 1 := by
  induction turns generalizing before with
  | nil =>
    rw [List.flatMap_nil, List.append_nil, ← List.append_nil (before ++ tail)] at hbyte
    have hlt := (List.getElem?_eq_some_iff.1 hbyte).1
    rw [Text.length_utf8, List.append_nil, Text.byteLength_append] at hlt
    rw [isGap_of_getElem? htail hbyte hlo hlt] at hb
    cases hb
  | cons t turns ih =>
    rw [places, Place.hits_cons]
    rw [List.flatMap_cons] at hbyte
    by_cases hhi : i < before.byteLength + t.written.byteLength
    · have htext : before ++ (t.written ++ turns.flatMap written) ++ tail =
          before ++ t.written ++ (turns.flatMap written ++ tail) := by
        simp only [List.append_assoc]
      rw [htext] at hbyte
      rw [hits_place_eq_one hbyte hb hlo hhi, hits_places_eq_zero hhi]
    · rw [← List.append_assoc before] at hbyte
      have hrest := ih hbyte (by rw [Text.byteLength_append]; omega)
      rw [Text.byteLength_append] at hrest
      rw [hits_place_eq_zero (.inr (Nat.le_of_not_lt hhi)), hrest]

theorem forall₂_holds (before : Text) (turns : List Turn) (tail : Text) :
    List.Forall₂ (Place.Holds (before ++ turns.flatMap written ++ tail))
      (places before.byteLength turns) (turns.map item) := by
  induction turns generalizing before with
  | nil => exact .nil
  | cons t turns ih =>
    have hfirst := holds_place before (turns.flatMap written ++ tail) t
    have hrest := ih (before ++ t.written)
    have htext : before ++ (t.written ++ turns.flatMap written) ++ tail =
        before ++ t.written ++ (turns.flatMap written ++ tail) := by
      simp only [List.append_assoc]
    rw [places, List.flatMap_cons, List.map_cons, htext]
    rw [Text.byteLength_append, List.append_assoc _ (turns.flatMap written)] at hrest
    exact .cons hfirst hrest

/-- **The walk moves on with every turn.** -/
theorem pairwise_stop (offset : Nat) (turns : List Turn) :
    (offset :: (places offset turns).map Place.stop).Pairwise (· < ·) := by
  induction turns generalizing offset with
  | nil => exact List.pairwise_singleton _ _
  | cons t turns ih =>
    have hpos := t.written_pos
    have hrest := ih (offset + t.written.byteLength)
    rw [places, List.map_cons, place_stop]
    refine List.pairwise_cons.2 ⟨fun stop hstop => ?_, hrest⟩
    rcases List.mem_cons.1 hstop with rfl | hstop
    · omega
    · have := (List.pairwise_cons.1 hrest).1 stop hstop
      omega

theorem le_start_of_mem_slices (offset : Nat) (turns : List Turn) :
    ∀ s ∈ (places offset turns).flatMap Place.slices, offset ≤ s.start := by
  induction turns generalizing offset with
  | nil => simp [places]
  | cons t turns ih =>
    obtain ⟨hstart, hname, hmiddle, -, -⟩ := t.place_ordered offset
    intro s hs
    rw [places, List.flatMap_cons, List.mem_append, Place.slices, List.mem_pair] at hs
    rcases hs with (rfl | rfl) | hs
    · exact hstart
    · exact hstart.trans (hname.trans hmiddle)
    · exact (Nat.le_add_right _ _).trans (ih _ s hs)

/-- **The slices follow one another.** -/
theorem pairwise_slices (offset : Nat) (turns : List Turn) :
    ((places offset turns).flatMap Place.slices).Pairwise fun s t => s.stop ≤ t.start := by
  induction turns generalizing offset with
  | nil => exact .nil
  | cons t turns ih =>
    obtain ⟨-, -, hmiddle, hvalue, -⟩ := t.place_ordered offset
    have hstop : (t.place offset).value.stop = offset + t.written.byteLength := t.place_stop offset
    have hlater := le_start_of_mem_slices (offset + t.written.byteLength) turns
    rw [places, List.flatMap_cons, List.pairwise_append]
    refine ⟨List.pairwise_pair.2 hmiddle, ih _, fun s hs u hu => ?_⟩
    have := hlater u hu
    rcases List.mem_pair.1 hs with rfl | rfl
    · omega
    · omega

end Turn

/-- **The walk loses nothing.**  The items of a line have places on it: their slices lie inside the
line, with no end inside a character, and an `=` stands between the name and the value or there is
no value.  Each turn of the walk ends further on than the one before it, the slices follow one
another without overlapping, and each byte of the line that is no white space is in exactly one
slice or is the one `=` of an item. -/
theorem walk_loses_nothing (line : Text) : ∃ places : List Place,
    List.Forall₂ (Place.Holds line) places (inlineItems line) ∧
    (0 :: places.map Place.stop).Pairwise (· < ·) ∧
    (places.flatMap Place.slices).Pairwise (fun s t => s.stop ≤ t.start) ∧
    ∀ i b, line.utf8[i]? = some b → isGap (Char.ofUInt8 b) = false → Place.hits i places = 1 := by
  obtain ⟨turns, tail, hline, htail, hitems⟩ := exists_turns line
  have hholds := Turn.forall₂_holds [] turns tail
  rw [List.nil_append, ← hline, ← hitems] at hholds
  refine ⟨Turn.places 0 turns, hholds, Turn.pairwise_stop 0 turns, Turn.pairwise_slices 0 turns, ?_⟩
  intro i b hbyte hb
  rw [hline, ← List.nil_append (turns.flatMap Turn.written)] at hbyte
  exact Turn.hits_places_eq_one htail hbyte hb (Nat.zero_le i)

/-- An item without a name, a quoted value with a name right after it, and an open quote. -/
def untidyLine : Text := "= 1 é=\"x y\"b c = 'z ".toList

/-- The `=` that the line starts with belongs to an item, and so does all the rest. -/
theorem untidy_line_walked :
    inlineItems untidyLine = [([], ['1']), (['é'], ['"', 'x', ' ', 'y', '"']), (['b'], []),
      (['c'], ['\'', 'z', ' '])] ∧
    untidyLine.utf8[0]? = some '='.toUInt8 ∧
    ∃ places, List.Forall₂ (Place.Holds untidyLine) places (inlineItems untidyLine) ∧
      Place.hits 0 places = 1 := by
  have hbyte : untidyLine.utf8[0]? = some '='.toUInt8 := by decide
  obtain ⟨places, hholds, -, -, hhits⟩ := walk_loses_nothing untidyLine
  exact ⟨by decide +kernel, hbyte, places, hholds, hhits 0 _ hbyte (by decide)⟩

end Enumeration

end OpcodeLens
