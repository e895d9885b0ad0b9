import OpcodeLens.Proofs.Enumeration.Inline

/-!
# The walk along the bytes of a line

`Enumeration.inlineItems` takes the characters of a line apart.  The items can as well be found by a
walk that looks at one byte at a time, keeps offsets only and slices the line where it stops.  The
two agree, since white space, `=` and the quotes are bytes of their own: none of them is part of a
longer character, so the walk never stops inside one.

* `Enumeration.passOver` : the loop that skips bytes of a class, and `Enumeration.passOver_append` :
  it skips the characters of the class.
* `Enumeration.byteWalk` : the walk, with the places of the items as its result.
* `Enumeration.forall₂_byteWalk` : **the slices at these places are the items of the line.**
-/

namespace OpcodeLens

namespace Enumeration

variable {admits : Char → Bool} {line piece rest : Text} {c : Char} {pos start stop : Nat}

/-! ### Skipping bytes -/

/-- Moves on from the offset as long as there are bytes of the class. -/
def passOver (admits : Char → Bool) (line : Text) (pos : Nat) : Nat :=
  if _h : line.byteIs admits pos then passOver admits line (pos + 1) else pos
termination_by line.byteLength - pos
decreasing_by
  have := Text.lt_byteLength_of_byteIs _h
  omega

theorem le_passOver (admits : Char → Bool) (line : Text) (pos : Nat) :
    pos ≤ passOver admits line pos := by
  fun_induction passOver admits line pos with
  | case1 pos _ ih => omega
  | case2 pos _ => exact Nat.le_refl pos

theorem passOver_le (admits : Char → Bool) (h : pos ≤ line.byteLength) :
    passOver admits line pos ≤ line.byteLength := by
  fun_induction passOver admits line pos with
  | case1 pos hbyte ih => exact ih (Text.lt_byteLength_of_byteIs hbyte)
  | case2 => exact h

theorem byteIs_passOver (admits : Char → Bool) (line : Text) (pos : Nat) :
    line.byteIs admits (passOver admits line pos) = false := by
  fun_induction passOver admits line pos with
  | case1 _ _ ih => exact ih
  | case2 _ h => exact Bool.eq_false_iff.2 h

theorem passOver_of_byteIs (h : line.byteIs admits pos = true) :
    passOver admits line pos = passOver admits line (pos + 1) := by
  rw [passOver, dif_pos h]

theorem passOver_of_not_byteIs (h : line.byteIs admits pos = false) :
    passOver admits line pos = pos := by
  rw [passOver, dif_neg (Bool.eq_false_iff.1 h)]

theorem passOver_add {n : Nat} (h : ∀ i < n, line.byteIs admits (pos + i) = true) :
    passOver admits line pos = passOver admits line (pos + n) := by
  induction n with
  | zero => rfl
  | succ n ih =>
    rw [ih fun i hi => h i (Nat.lt_succ_of_lt hi), passOver_of_byteIs (h n (Nat.lt_succ_self n))]
    rfl

/-- **The bytes that are skipped are those of the characters of the class.** -/
theorem passOver_append (h : Text.Bytewise admits) (before rest : Text) :
    passOver admits (before ++ rest) before.byteLength =
      before.byteLength + Text.byteLength (rest.takeWhile admits) := by
  induction rest generalizing before with
  | nil =>
    rw [List.append_nil, passOver_of_not_byteIs (Text.byteIs_byteLength admits before)]
    rfl
  | cons c rest ih =>
    have hbyte : ∀ i < c.utf8Size, _ := fun i hi => h.byteIs_append (i := i) before rest hi
    cases hc : admits c with
    | false =>
      have hfirst := hbyte 0 c.utf8Size_pos
      rw [hc] at hfirst
      rw [List.takeWhile_cons_of_neg (by rw [hc]; decide)]
      exact passOver_of_not_byteIs hfirst
    | true =>
      rw [hc] at hbyte
      have hnext := ih (before ++ [c])
      rw [List.append_assoc, List.singleton_append, Text.byteLength_append] at hnext
      rw [passOver_add hbyte, List.takeWhile_cons_of_pos hc, Text.byteLength, ← Nat.add_assoc]
      exact hnext

/-! ### Stretches of the line -/

/-- The offset is a boundary of the line, with the text after it. -/
def Ahead (line : Text) (pos : Nat) (rest : Text) : Prop :=
  ∃ before, line = before ++ rest ∧ before.byteLength = pos

/-- Between the two offsets stands the piece, and the rest after it. -/
structure Passes (line : Text) (start stop : Nat) (piece rest : Text) : Prop where
  /-- Both are ahead of the first offset. -/
  ahead : Ahead line start (piece ++ rest)
  /-- The second offset is that of the end of the piece. -/
  stop_eq : stop = start + piece.byteLength

namespace Passes

theorem next (h : Passes line start stop piece rest) : Ahead line stop rest := by
  obtain ⟨⟨before, rfl, rfl⟩, rfl⟩ := h
  exact ⟨before ++ piece, (List.append_assoc ..).symm, Text.byteLength_append ..⟩

theorem isSlice (h : Passes line start stop piece rest) : line.IsSlice ⟨start, stop⟩ piece := by
  obtain ⟨⟨before, rfl, rfl⟩, rfl⟩ := h
  rw [← List.append_assoc]
  exact Text.isSlice_append before piece rest

theorem trans {piece' : Text} {stop' : Nat} (h : Passes line start stop piece (piece' ++ rest))
    (h' : Passes line stop stop' piece' rest) : Passes line start stop' (piece ++ piece') rest where
  ahead := by rw [List.append_assoc]; exact h.ahead
  stop_eq := by rw [Text.byteLength_append, h'.stop_eq, h.stop_eq, Nat.add_assoc]

end Passes

namespace Ahead

theorem byteIs_eq (hahead : Ahead line pos rest) (h : Text.Bytewise admits) :
    line.byteIs admits pos = rest.head?.any admits := by
  obtain ⟨before, rfl, rfl⟩ := hahead
  cases rest with
  | nil => rw [List.append_nil, Text.byteIs_byteLength]; rfl
  | cons c rest => exact h.byteIs_append before rest c.utf8Size_pos

theorem add_byteLength (hahead : Ahead line pos rest) :
    pos + rest.byteLength = line.byteLength := by
  obtain ⟨before, rfl, rfl⟩ := hahead
  exact (Text.byteLength_append ..).symm

theorem passes (hahead : Ahead line pos rest) (h : Text.Bytewise admits) :
    Passes line pos (passOver admits line pos) (rest.takeWhile admits) (rest.dropWhile admits) where
  ahead := by rwa [List.takeWhile_append_dropWhile]
  stop_eq := by
    obtain ⟨before, rfl, rfl⟩ := hahead
    exact passOver_append h before rest

theorem passes_char (hahead : Ahead line pos (c :: rest)) (hc : c.utf8Size = 1) :
    Passes line pos (pos + 1) [c] rest :=
  ⟨hahead, by rw [Text.byteLength, hc]; rfl⟩

end Ahead

/-! ### Items -/

theorem bytewise_isItemNameChar : Text.Bytewise isItemNameChar :=
  bytewise_isGap.not.and (Text.bytewise_ne rfl)

/-- Where the value ends that starts at the offset: after the closing quote, or at the end of the
line without one, if the first byte is a quote, and at the next white space otherwise. -/
def valueStop (line : Text) (start : Nat) : Nat :=
  match ['"', '\''].find? fun quote => line.byteIs (· = quote) start with
  | some quote => min (passOver (· ≠ quote) line (start + 1) + 1) line.byteLength
  | none => passOver (!isGap ·) line start

/-- The place of the item that starts at the offset. -/
def byteItem (line : Text) (start : Nat) : Place :=
  let nameStop := passOver isItemNameChar line start
  let equals := passOver isGap line nameStop
  if line.byteIs (· = '=') equals then
    let valueStart := passOver isGap line (equals + 1)
    ⟨⟨start, nameStop⟩, some equals, ⟨valueStart, valueStop line valueStart⟩⟩
  else ⟨⟨start, nameStop⟩, none, ⟨nameStop, nameStop⟩⟩

theorem byteItem_divided
    (h : line.byteIs (· = '=') (passOver isGap line (passOver isItemNameChar line pos)) = true) :
    byteItem line pos =
      let equals := passOver isGap line (passOver isItemNameChar line pos)
      let valueStart := passOver isGap line (equals + 1)
      ⟨⟨pos, passOver isItemNameChar line pos⟩, some equals,
        ⟨valueStart, valueStop line valueStart⟩⟩ :=
  if_pos h

theorem byteItem_bare
    (h : line.byteIs (· = '=') (passOver isGap line (passOver isItemNameChar line pos)) = false) :
    byteItem line pos =
      let nameStop := passOver isItemNameChar line pos
      ⟨⟨pos, nameStop⟩, none, ⟨nameStop, nameStop⟩⟩ :=
  if_neg (Bool.eq_false_iff.1 h)

/-- After the closing quote, or at the end of the line if there is none. -/
theorem Ahead.passes_quoted (hahead : Ahead line pos (c :: rest)) (hc : c.utf8Size = 1) :
    Passes line pos (min (passOver (· ≠ c) line (pos + 1) + 1) line.byteLength)
      (c :: rest.takeWhile (· ≠ c) ++ (rest.dropWhile (· ≠ c)).take 1)
      ((rest.dropWhile (· ≠ c)).drop 1) := by
  have hquote := hahead.passes_char hc
  have hcontent := hquote.next.passes (Text.bytewise_ne hc)
  have hend := hcontent.next.add_byteLength
  have hopen := Passes.trans (by rwa [List.takeWhile_append_dropWhile]) hcontent
  -- without a closing quote the walk has reached the end of the line, which it does not pass
  cases htail : rest.dropWhile (· ≠ c) with
  | nil =>
    rw [htail] at hend hopen
    rw [Nat.min_eq_right (by simp only [Text.byteLength] at hend; omega), ← hend]
    rw [List.take_nil, List.append_nil]
    exact hopen
  | cons d tail =>
    have hd := Text.head?_dropWhile_of_not (· ≠ c) rest d (by rw [htail]; rfl)
    obtain rfl : d = c := by simpa using hd
    rw [htail] at hend hopen hcontent
    have hclose := hcontent.next.passes_char hc
    rw [Nat.min_eq_left (by simp only [Text.byteLength, hc] at hend; omega)]
    exact hopen.trans hclose

theorem Ahead.find?_quote (hahead : Ahead line pos (c :: rest)) :
    (['"', '\''].find? fun quote => line.byteIs (· = quote) pos) =
      if c = '"' || c = '\'' then some c else none := by
  have hfirst : ∀ quote : Char, quote.utf8Size = 1 →
      line.byteIs (· = quote) pos = decide (c = quote) :=
    fun quote hsize => hahead.byteIs_eq (Text.bytewise_eq hsize)
  rw [List.find?_cons, List.find?_cons, List.find?_nil, hfirst '"' rfl, hfirst '\'' rfl]
  by_cases hdouble : c = '"'
  · simp [hdouble]
  · by_cases hsingle : c = '\''
    · simp [hsingle]
    · simp [hdouble, hsingle]

theorem utf8Size_quote (h : (c = '"' || c = '\'') = true) : c.utf8Size = 1 := by
  rcases Bool.or_eq_true_iff.1 h with h | h
  · rw [of_decide_eq_true h]
    rfl
  · rw [of_decide_eq_true h]
    rfl

/-- The value that starts at an offset is the one that is cut off there. -/
theorem Ahead.passes_value (hahead : Ahead line pos rest) :
    Passes line pos (valueStop line pos) (splitValue rest).1 (splitValue rest).2 := by
  have hword := hahead.passes bytewise_isGap.not
  cases rest with
  | nil =>
    have hnone : ∀ quote : Char, quote.utf8Size = 1 → line.byteIs (· = quote) pos = false :=
      fun quote hsize => hahead.byteIs_eq (Text.bytewise_eq hsize)
    rw [valueStop, List.find?_cons, List.find?_cons, List.find?_nil, hnone '"' rfl,
      hnone '\'' rfl]
    exact hword
  | cons c rest =>
    rw [valueStop, hahead.find?_quote, splitValue]
    by_cases hquote : (c = '"' || c = '\'') = true
    · rw [if_pos hquote, if_pos hquote]
      exact hahead.passes_quoted (utf8Size_quote hquote)
    · rw [if_neg hquote, if_neg hquote]
      exact hword

/-- The slices at the place are the name and the value of the item. -/
structure Place.Cuts (line : Text) (p : Place) (item : Text × Text) : Prop where
  /-- The name stands at its place. -/
  name : line.IsSlice p.name item.1
  /-- So does the value. -/
  value : line.IsSlice p.value item.2

/-- **The item that starts at an offset is the one that is cut off there**, and the walk goes on
with what is left of the line. -/
theorem Ahead.cuts_byteItem (hahead : Ahead line pos rest) :
    (byteItem line pos).Cuts line (splitItem rest).1 ∧
      Ahead line (byteItem line pos).stop (splitItem rest).2 := by
  have hname := hahead.passes bytewise_isItemNameChar
  have hgap := hname.next.passes bytewise_isGap
  have hequals := hgap.next.byteIs_eq (Text.bytewise_eq (c := '=') rfl)
  unfold splitItem
  dsimp only
  split
  · next tail htail =>
    rw [htail] at hgap hequals
    have hright := (hgap.next.passes_char rfl).next.passes bytewise_isGap
    have hvalue := hright.next.passes_value
    rw [byteItem_divided hequals]
    exact ⟨⟨hname.isSlice, hvalue.isSlice⟩, hvalue.next⟩
  · next hother =>
    have hnone :
        ((rest.dropWhile isItemNameChar).dropWhile isGap).head?.any (· = '=') = false := by
      cases htail : (rest.dropWhile isItemNameChar).dropWhile isGap with
      | nil => rfl
      | cons c tail => exact decide_eq_false fun hc => hother tail (by rw [htail, hc])
    have hempty : Passes line _ _ [] _ := ⟨hname.next, rfl⟩
    rw [hnone] at hequals
    rw [byteItem_bare hequals]
    exact ⟨⟨hname.isSlice, hempty.isSlice⟩, hname.next⟩

/-! ### The walk -/

theorem le_valueStop (h : pos ≤ line.byteLength) : pos ≤ valueStop line pos := by
  unfold valueStop
  split
  · next quote _ =>
    have := le_passOver (· ≠ quote) line (pos + 1)
    omega
  · exact le_passOver _ line pos

theorem byteIs_equals (hlt : pos < line.byteLength) (hgap : line.byteIs isGap pos = false)
    (hname : line.byteIs isItemNameChar pos = false) : line.byteIs (· = '=') pos = true := by
  have hbyte := List.getElem?_eq_getElem (Text.length_utf8 line ▸ hlt)
  simp only [Text.byteIs, hbyte, Option.any_some] at hgap hname ⊢
  exact decide_eq_true (isItemNameChar_eq_false hgap hname)

/-- **Every item takes bytes of the line**: an `=`, or else a name. -/
theorem lt_stop_byteItem (hlt : pos < line.byteLength) (hgap : line.byteIs isGap pos = false) :
    pos < (byteItem line pos).stop := by
  have hname := le_passOver isItemNameChar line pos
  have hleft := le_passOver isGap line (passOver isItemNameChar line pos)
  cases hequals :
      line.byteIs (· = '=') (passOver isGap line (passOver isItemNameChar line pos)) with
  | true =>
    have hinside : _ + 1 ≤ line.byteLength := Text.lt_byteLength_of_byteIs hequals
    have hvalue := (le_passOver isGap line _).trans (le_valueStop (passOver_le isGap hinside))
    rw [byteItem_divided hequals]
    dsimp only [Place.stop]
    omega
  | false =>
    rw [byteItem_bare hequals]
    dsimp only [Place.stop]
    cases hfirst : line.byteIs isItemNameChar pos with
    | true =>
      have := le_passOver isItemNameChar line (pos + 1)
      rw [passOver_of_byteIs hfirst]
      omega
    | false =>
      rw [passOver_of_not_byteIs hfirst, passOver_of_not_byteIs hgap,
        byteIs_equals hlt hgap hfirst] at hequals
      cases hequals

/-- The places of the items from the offset on. -/
def byteWalk (line : Text) (pos : Nat) : List Place :=
  if _h : passOver isGap line pos < line.byteLength then
    byteItem line (passOver isGap line pos) ::
      byteWalk line (byteItem line (passOver isGap line pos)).stop
  else []
termination_by line.byteLength - pos
decreasing_by
  have hle := le_passOver isGap line pos
  have hlt := lt_stop_byteItem _h (byteIs_passOver isGap line pos)
  omega

theorem inlineItems_dropWhile (rest : Text) :
    inlineItems (rest.dropWhile isGap) = inlineItems rest := by
  induction rest with
  | nil => rfl
  | cons c rest ih =>
    by_cases hc : isGap c = true
    · rw [List.dropWhile_cons_of_pos hc, ih, inlineItems, dif_pos hc]
    · rw [List.dropWhile_cons_of_neg hc]

theorem Ahead.forall₂_byteWalk (hahead : Ahead line pos rest) :
    List.Forall₂ (Place.Cuts line) (byteWalk line pos) (inlineItems rest) := by
  fun_induction byteWalk line pos generalizing rest with
  | case1 pos hlt ih =>
    have hstart := (hahead.passes bytewise_isGap).next
    have hend := hstart.add_byteLength
    -- the walk skips white space at once, `inlineItems` one character at a time
    rw [← inlineItems_dropWhile]
    cases hrest : rest.dropWhile isGap with
    | nil =>
      rw [hrest] at hend
      exact absurd hend (Nat.ne_of_lt hlt)
    | cons c tail =>
      rw [hrest] at hstart
      have hc := Text.head?_dropWhile_of_not isGap rest c (by rw [hrest]; rfl)
      rw [inlineItems, dif_neg (Bool.eq_false_iff.1 hc)]
      exact .cons hstart.cuts_byteItem.1 (ih hstart.cuts_byteItem.2)
  | case2 pos hle =>
    have hstart := (hahead.passes bytewise_isGap).next
    have hend := hstart.add_byteLength
    have hlength := Text.length_le_byteLength (rest.dropWhile isGap)
    have hrest : rest.dropWhile isGap = [] := List.length_eq_zero_iff.1 (by omega)
    rw [← inlineItems_dropWhile, hrest, inlineItems]
    exact .nil

/-- **The slices that the walk along the bytes takes are the items of the line.** -/
theorem forall₂_byteWalk (line : Text) :
    List.Forall₂ (Place.Cuts line) (byteWalk line 0) (inlineItems line) :=
  Ahead.forall₂_byteWalk ⟨[], rfl, rfl⟩

end Enumeration

end OpcodeLens
