import OpcodeLens.Proofs.Text.Bytes
import OpcodeLens.Proofs.Text.WordSpan

/-!
# Words and runs of bytes

The words under a cursor are described here by the bytes of the text alone: a run of bytes of the
right kind that touches the cursor and cannot be extended.  There is always one such run, and what
is found at a cursor is cut out of it, so that all cursors of the run find the same.

* `Text.Bytewise` : a class that can be tested on each byte of a character.
* `Text.IsByteRun` : the run, and `Text.IsByteRun.eq` : there is no other one.
* `Text.IsRun.isByteRun` : a run of characters is a run of bytes.
* `Text.exists_isByteRun` : **there is a run at every cursor, and `Text.runAt?` finds it** at
  boundaries, if it is not empty.
* `Text.simpleWord?_eq_some_iff`, `Text.dottedWord?_eq_some_iff` : what is cut out of a run, which
  is all of it but one leading `@` (`Text.IsPlainWord`), or the longest name, with a dot in it or
  without, that it starts with (`Text.IsMemberWord`).
* `Text.words_under_cursor` : **the words under a cursor are maximal, can be sliced and do not
  depend on the place in the run.**
-/

namespace OpcodeLens

namespace Text

variable {text before run after : Text} {admits other : Char → Bool} {offset i : Nat} {c : Char}

/-! ### Bytes of a class -/

/-- Is there a byte at the offset, and does it stand for a character of the class? -/
def byteIs (admits : Char → Bool) (text : Text) (i : Nat) : Bool :=
  text.utf8[i]?.any fun b => admits (Char.ofUInt8 b)

theorem byteIs_iff (h : OneByte admits) : byteIs admits text i = true ↔
    ∃ (before : Text) (c : Char) (after : Text), text = before ++ c :: after ∧
      before.byteLength = i ∧ admits c = true := by
  rw [byteIs, Option.any_eq_true]
  constructor
  · rintro ⟨b, hbyte, hb⟩
    obtain ⟨before, after, htext, hi⟩ :=
      (getElem?_utf8_eq_some_iff (utf8Size_ofUInt8.1 (h _ hb))).1 hbyte
    exact ⟨before, _, after, htext, hi, hb⟩
  · rintro ⟨before, c, after, htext, hi, hc⟩
    obtain ⟨b, hb, rfl⟩ := exists_eq_ofUInt8 (h c hc)
    exact ⟨b, (getElem?_utf8_eq_some_iff hb).2 ⟨before, after, htext, hi⟩, hc⟩

/-! ### Classes that are tested byte by byte -/

/-- A byte of a character is in the class just if the character is. -/
def Bytewise (admits : Char → Bool) : Prop :=
  ∀ c, ∀ b ∈ String.utf8EncodeChar c, admits (Char.ofUInt8 b) = admits c

theorem OneByte.bytewise (h : OneByte admits) : Bytewise admits := by
  intro c b hb
  by_cases hc : c.utf8Size = 1
  · obtain ⟨d, hd, rfl⟩ := exists_eq_ofUInt8 hc
    rw [utf8EncodeChar_ofUInt8 hd, List.mem_singleton] at hb
    rw [hb]
  · -- a longer character is not in the class, and no byte of it is a character of one byte
    rw [Bool.eq_false_iff.2 (mt (h c) hc), Bool.eq_false_iff]
    intro hadmits
    obtain rfl := eq_ofUInt8_of_mem_utf8EncodeChar hb (utf8Size_ofUInt8.1 (h _ hadmits))
    exact hc (h _ hadmits)

theorem Bytewise.not (h : Bytewise admits) : Bytewise (!admits ·) := fun c b hb =>
  congrArg (! ·) (h c b hb)

theorem Bytewise.and (h : Bytewise admits) (h' : Bytewise other) :
    Bytewise fun c => admits c && other c := fun c b hb => by
  dsimp only
  rw [h c b hb, h' c b hb]

theorem bytewise_eq (hc : c.utf8Size = 1) : Bytewise (· = c) :=
  OneByte.bytewise fun _ h => (of_decide_eq_true h).symm ▸ hc

theorem bytewise_ne (hc : c.utf8Size = 1) : Bytewise (· ≠ c) := by
  simpa only [decide_not] using (bytewise_eq hc).not

theorem lt_byteLength_of_byteIs (h : text.byteIs admits i = true) :
    i < text.byteLength := by
  obtain ⟨b, hbyte, -⟩ := (Option.any_eq_true _ _).1 h
  rw [← length_utf8]
  exact (List.getElem?_eq_some_iff.1 hbyte).1

theorem Bytewise.byteIs_append (h : Bytewise admits) (before after : Text) (hi : i < c.utf8Size) :
    byteIs admits (before ++ c :: after) (before.byteLength + i) = admits c := by
  have hbyte := getElem?_utf8_append before [c] after (i := i) (by simpa [byteLength] using hi)
  have hlt : i < (utf8 [c]).length := by simpa [length_utf8, byteLength] using hi
  rw [List.append_assoc, List.singleton_append, List.getElem?_eq_getElem hlt] at hbyte
  rw [byteIs, hbyte, Option.any_some]
  obtain ⟨d, hd, hmem⟩ := List.mem_flatMap.1 (List.getElem_mem hlt)
  rw [List.mem_singleton.1 hd] at hmem
  exact h c _ hmem

theorem byteIs_byteLength (admits : Char → Bool) (text : Text) :
    byteIs admits text text.byteLength = false := by
  rw [byteIs, ← length_utf8, List.getElem?_length]
  rfl

/-! ### Runs -/

/-- A run of bytes that are all in the class, that touches the offset and that cannot be extended:
neither neighbour of it is in the class. -/
structure IsByteRun (admits : Char → Bool) (text : Text) (offset : Nat) (run : ByteRange) :
    Prop where
  /-- It starts at the offset or before it. -/
  start_le : run.start ≤ offset
  /-- It ends at the offset or after it. -/
  le_stop : offset ≤ run.stop
  /-- All its bytes are in the class. -/
  admitted : ∀ i, run.start ≤ i → i < run.stop → byteIs admits text i = true
  /-- The byte before it is not. -/
  left : ∀ i, i + 1 = run.start → byteIs admits text i = false
  /-- Nor is the byte after it. -/
  right : byteIs admits text run.stop = false

namespace IsByteRun

variable {r r' : ByteRange}

theorem start_le_start (h : IsByteRun admits text offset r) (h' : IsByteRun admits text offset r') :
    r.start ≤ r'.start := by
  by_contra hlt
  have hle := h.start_le
  have hle' := h'.le_stop
  have hin := h'.admitted (r.start - 1) (by omega) (by omega)
  rw [h.left (r.start - 1) (by omega)] at hin
  cases hin

theorem stop_le_stop (h : IsByteRun admits text offset r) (h' : IsByteRun admits text offset r') :
    r.stop ≤ r'.stop := by
  by_contra hlt
  have hle := h.start_le
  have hle' := h'.le_stop
  have hin := h.admitted r'.stop (by omega) (by omega)
  rw [h'.right] at hin
  cases hin

/-- **Only one run touches an offset.** -/
theorem eq (h : IsByteRun admits text offset r) (h' : IsByteRun admits text offset r') :
    r = r' := by
  cases r
  cases r'
  rw [ByteRange.mk.injEq]
  exact ⟨Nat.le_antisymm (h.start_le_start h') (h'.start_le_start h),
    Nat.le_antisymm (h.stop_le_stop h') (h'.stop_le_stop h)⟩

end IsByteRun

/-- **A run of characters is a run of bytes.** -/
theorem IsRun.isByteRun (h : IsRun admits text before run after) (hadmits : OneByte admits)
    (hlo : before.byteLength ≤ offset) (hhi : offset ≤ before.byteLength + run.byteLength) :
    IsByteRun admits text offset
      ⟨before.byteLength, before.byteLength + run.byteLength⟩ where
  start_le := hlo
  le_stop := hhi
  admitted := by
    intro i hstart hstop
    obtain ⟨head, tail, hrun, hcut⟩ := exists_cut hadmits h.admitted hstart hstop.le
    cases tail with
    | nil =>
      rw [List.append_nil] at hrun
      rw [byteLength_append, ← hrun] at hcut
      exact absurd hcut hstop.ne'
    | cons c tail =>
      refine (byteIs_iff hadmits).2 ⟨before ++ head, c, tail ++ after, ?_, hcut, ?_⟩
      · rw [h.eq, hrun]
        simp only [List.append_assoc, List.cons_append]
      · exact h.admitted c (by simp [hrun])
  left := by
    intro i hi
    rw [← Bool.not_eq_true, byteIs_iff hadmits]
    rintro ⟨front, c, rest, htext, rfl, hc⟩
    -- the byte is the last character before the run
    have hlength : byteLength (front ++ [c]) = before.byteLength := by
      rw [byteLength_append, byteLength, hadmits c hc]
      exact hi
    have heq : front ++ [c] ++ rest = before ++ (run ++ after) := by
      rw [← List.append_assoc before, ← h.eq, htext, List.append_assoc, List.singleton_append]
    obtain ⟨rfl, -⟩ := append_inj_of_byteLength heq hlength
    have hleft := h.left c List.getLast?_concat
    rw [hc] at hleft
    cases hleft
  right := by
    rw [← Bool.not_eq_true, byteIs_iff hadmits]
    rintro ⟨front, c, rest, htext, hlength, hc⟩
    rw [← byteLength_append] at hlength
    obtain ⟨-, rfl⟩ := append_inj_of_byteLength (htext.symm.trans h.eq) hlength
    have hright := h.right c rfl
    rw [hc] at hright
    cases hright

/-- No run reaches into a character of several bytes. -/
theorem isByteRun_of_not_isBoundary (hadmits : OneByte admits) (h : ¬ text.IsBoundary offset) :
    IsByteRun admits text offset ⟨offset, offset⟩ where
  start_le := Nat.le_refl _
  le_stop := Nat.le_refl _
  admitted i hstart hstop := absurd hstop (Nat.not_lt.2 hstart)
  left := by
    intro i hi
    rw [← Bool.not_eq_true, byteIs_iff hadmits]
    rintro ⟨front, c, rest, htext, rfl, hc⟩
    refine h ⟨front ++ [c], rest, by rw [htext, List.append_assoc, List.singleton_append], ?_⟩
    rw [byteLength_append, byteLength, hadmits c hc]
    exact hi
  right := by
    rw [← Bool.not_eq_true, byteIs_iff hadmits]
    rintro ⟨front, c, rest, htext, hlength, hc⟩
    exact h ⟨front, c :: rest, htext, hlength⟩

theorem runAt?_min (admits : Char → Bool) (text : Text) (offset : Nat) :
    runAt? admits text (min offset text.byteLength) = runAt? admits text offset := by
  rw [runAt?, Nat.min_assoc, Nat.min_self, runAt?]

theorem isBoundary_iff_splitAtByte : text.IsBoundary offset ↔
    ∃ before after, text.splitAtByte offset = some (before, after) := by
  constructor
  · rintro ⟨before, after, rfl, rfl⟩
    exact ⟨before, after, splitAtByte_append before after⟩
  · rintro ⟨before, after, hcut⟩
    obtain ⟨htext, hlength⟩ := eq_append_of_splitAtByte hcut
    exact ⟨before, after, htext, hlength⟩

theorem runAt?_of_not_isBoundary (h : ¬ text.IsBoundary (min offset text.byteLength)) :
    runAt? admits text offset = none := by
  rw [isBoundary_iff_splitAtByte] at h
  rw [runAt?]
  cases hsplit : text.splitAtByte (min offset text.byteLength) with
  | none => rfl
  | some parts => exact absurd ⟨parts.1, parts.2, hsplit⟩ h

/-- A boundary touches a run of characters, which is found if it is not empty. -/
theorem exists_isRun_touching (admits : Char → Bool) (h : text.IsBoundary offset) :
    ∃ before run after, IsRun admits text before run after ∧ before.byteLength ≤ offset ∧
      offset ≤ before.byteLength + run.byteLength ∧
      runAt? admits text offset = if run.isEmpty then none else some ⟨before.byteLength, run⟩ := by
  obtain ⟨left, right, rfl, rfl⟩ := h
  -- the run around the cursor itself, which is no part of the text
  have hrun : IsRun admits (left ++ [] ++ right) _ _ _ :=
    isRun_around left right (List.forall_mem_nil _)
  have hleft : left.rdropWhile admits ++ left.rtakeWhile admits = left :=
    List.rdropWhile_append_rtakeWhile
  have hlength := congrArg byteLength hleft
  rw [byteLength_append] at hlength
  rw [List.append_nil, List.append_nil] at hrun
  refine ⟨_, _, _, hrun, by omega, ?_, runAt?_append admits left right⟩
  rw [byteLength_append]
  omega

/-- **There is a run at every cursor.**  If the cursor stands at a boundary and the run is not
empty, it is found, and it is found in the same way from all cursors that touch it. -/
theorem exists_isByteRun (hadmits : OneByte admits) (text : Text) (offset : Nat) :
    ∃ run, IsByteRun admits text (min offset text.byteLength) run ∧
      (∀ span, runAt? admits text offset = some span ↔
        text.IsBoundary (min offset text.byteLength) ∧ span.text ≠ [] ∧
          span.start = run.start ∧ text.slice? run = some span.text) ∧
      ∀ other, run.start ≤ other → other ≤ run.stop →
        runAt? admits text other = runAt? admits text offset := by
  by_cases hboundary : text.IsBoundary (min offset text.byteLength)
  · obtain ⟨before, run, after, hrun, hlo, hhi, hfound⟩ := exists_isRun_touching admits hboundary
    rw [runAt?_min] at hfound
    have hslice := slice?_append before run after
    rw [← hrun.eq] at hslice
    refine ⟨_, hrun.isByteRun hadmits hlo hhi, fun span => ?_, fun other hstart hstop => ?_⟩
    · obtain ⟨start, piece⟩ := span
      rw [and_iff_right hboundary, hslice, hfound, Option.some_inj]
      split_ifs with hempty
      · rw [List.isEmpty_iff] at hempty
        subst hempty
        exact iff_of_false (by simp) fun h => h.1 h.2.2.symm
      · rw [Option.some_inj, WordSpan.mk.injEq]
        refine ⟨?_, fun h => ⟨h.2.1.symm, h.2.2⟩⟩
        rintro ⟨rfl, rfl⟩
        exact ⟨by simpa using hempty, rfl, rfl⟩
    · by_cases hne : run = []
      · subst hne
        obtain rfl : other = min offset text.byteLength :=
          Nat.le_antisymm (hstop.trans hlo) (hhi.trans hstart)
        exact runAt?_min admits text offset
      · rw [hrun.runAt?_eq hadmits hne hstart hstop, hfound, if_neg (by simpa using hne)]
  · refine ⟨_, isByteRun_of_not_isBoundary hadmits hboundary, fun span => ?_, ?_⟩
    · rw [runAt?_of_not_isBoundary hboundary]
      exact iff_of_false (by simp) fun h => hboundary h.1
    · intro other hstart hstop
      obtain rfl := Nat.le_antisymm hstop hstart
      exact runAt?_min admits text offset

/-! ### Plain words -/

/-- The word is the run without one leading `@`, and it is not empty. -/
def IsPlainWord (run word : WordSpan) : Prop :=
  word.text ≠ [] ∧ (run = word ∧ run.text.head? ≠ some '@' ∨
    run.text = '@' :: word.text ∧ word.start = run.start + 1)

theorem simpleWord?_eq_some_iff {word : WordSpan} : text.simpleWord? offset = some word ↔
    ∃ run, runAt? isSimpleChar text offset = some run ∧ IsPlainWord run word := by
  cases hrun : runAt? isSimpleChar text offset with
  | none => simp [simpleWord?, hrun]
  | some run =>
    obtain ⟨hne, -⟩ := exists_isRun_of_runAt? hrun
    obtain ⟨start, run⟩ := run
    obtain ⟨wordStart, word⟩ := word
    simp only [Option.some_inj, exists_eq_left', IsPlainWord, WordSpan.mk.injEq]
    by_cases hhead : run.head? = some '@'
    · obtain ⟨rest, rfl⟩ := List.head?_eq_some_iff.1 hhead
      rw [simpleWord?_of_runAt?_cons hrun]
      constructor
      · intro h
        split_ifs at h with hempty
        cases h
        exact ⟨by simpa using hempty, .inr ⟨rfl, rfl⟩⟩
      · rintro ⟨hword, ⟨-, hother⟩ | ⟨heq, rfl⟩⟩
        · exact absurd hhead hother
        · cases heq
          rw [if_neg (by simpa using hword)]
    · rw [simpleWord?_of_runAt? hrun hhead, Option.some_inj, WordSpan.mk.injEq]
      constructor
      · rintro ⟨rfl, rfl⟩
        exact ⟨hne, .inl ⟨⟨rfl, rfl⟩, hhead⟩⟩
      · rintro ⟨-, ⟨heq, -⟩ | ⟨rfl, -⟩⟩
        · exact heq
        · exact absurd rfl hhead

/-! ### Members -/

/-- A name: at least one character, and all of them belong to names. -/
def IsName (text : Text) : Prop := text ≠ [] ∧ ∀ c ∈ text, isNameChar c = true

/-- A name, or two names with a dot between them. -/
def IsDottedName (text : Text) : Prop :=
  IsName text ∨ ∃ owner member, text = owner ++ '.' :: member ∧ IsName owner ∧ IsName member

/-- The run has a dot and does not start with one, and the word is the longest name, with a dot in
it or without, that the run starts with. -/
structure IsMemberWord (run word : WordSpan) : Prop where
  /-- There is a dot. -/
  dot : '.' ∈ run.text
  /-- Something stands before it. -/
  head : run.text.head? ≠ some '.'
  /-- The word starts where the run does. -/
  start : word.start = run.start
  /-- The run starts with the word. -/
  head_of : word.text <+: run.text
  /-- The word is a name. -/
  name : IsDottedName word.text
  /-- No longer name will do. -/
  longest : ∀ head, head <+: run.text → IsDottedName head → head.length ≤ word.text.length

section Longest

variable {owner rest head : Text}

theorem takeWhile_isNameChar_dot (h : IsName owner) (rest : Text) :
    (owner ++ '.' :: rest).takeWhile isNameChar = owner := by
  refine takeWhile_append_stop h.2 ?_
  rintro c ⟨⟩
  exact not_isNameChar_dot

theorem dottedHead_name (h : IsName owner) : dottedHead owner = owner := by
  rw [dottedHead, List.dropWhile_eq_nil_iff.2 h.2]
  exact List.takeWhile_eq_self_iff.2 h.2

theorem dottedHead_dot (h : IsName owner) (rest : Text) :
    dottedHead (owner ++ '.' :: rest) =
      if (rest.takeWhile isNameChar).isEmpty then owner
      else owner ++ '.' :: rest.takeWhile isNameChar := by
  have hdrop : (owner ++ '.' :: rest).dropWhile isNameChar = '.' :: rest := by
    refine dropWhile_append_stop h.2 ?_
    rintro c ⟨⟩
    exact not_isNameChar_dot
  rw [dottedHead, takeWhile_isNameChar_dot h, hdrop]
  rfl

/-- A run that does not start with a dot starts with a name, and a dot follows unless the run ends
there. -/
theorem exists_owner {run : Text} (hrun : ∀ c ∈ run, isDottedChar c = true) (hne : run ≠ [])
    (hhead : run.head? ≠ some '.') :
    ∃ owner, IsName owner ∧ (run = owner ∨ ∃ rest, run = owner ++ '.' :: rest) := by
  have hdot : ∀ c ∈ run, isNameChar c = false → c = '.' := by
    intro c hc hname
    have hdotted := hrun c hc
    rw [isDottedChar, hname, Bool.false_or, decide_eq_true_eq] at hdotted
    exact hdotted
  have hsplit := List.takeWhile_append_dropWhile (p := isNameChar) (l := run)
  refine ⟨run.takeWhile isNameChar, ⟨?_, fun c hc => List.mem_takeWhile_imp hc⟩, ?_⟩
  · obtain ⟨c, tail, rfl⟩ := List.exists_cons_of_ne_nil hne
    intro hnil
    cases hname : isNameChar c with
    | true => simp [hname] at hnil
    | false => exact hhead (congrArg some (hdot c List.mem_cons_self hname))
  · cases hdrop : run.dropWhile isNameChar with
    | nil =>
      rw [hdrop, List.append_nil] at hsplit
      exact .inl hsplit.symm
    | cons d rest =>
      have hd := head?_dropWhile_of_not isNameChar run d (by rw [hdrop]; rfl)
      rw [hdrop] at hsplit
      obtain rfl := hdot d (by rw [← hsplit]; simp) hd
      exact .inr ⟨rest, hsplit.symm⟩

/-- **No longer name stands at the start of a run than the one that is taken.** -/
theorem length_le_dottedHead {run : Text} (hrun : ∀ c ∈ run, isDottedChar c = true)
    (hne : run ≠ []) (hhead : run.head? ≠ some '.') (hle : head <+: run) (h : IsDottedName head) :
    head.length ≤ (dottedHead run).length := by
  obtain ⟨owner, howner, rfl | ⟨rest, rfl⟩⟩ := exists_owner hrun hne hhead
  · rw [dottedHead_name howner]
    exact hle.length_le
  · rw [dottedHead_dot howner]
    obtain ⟨tail, htail⟩ := hle
    have htake := takeWhile_isNameChar_dot howner rest
    rcases h with hname | ⟨first, second, rfl, hfirst, hsecond⟩
    · -- a name ends before the dot
      rw [← htail, List.takeWhile_append_of_pos hname.2] at htake
      have hlength := congrArg List.length htake
      rw [List.length_append] at hlength
      split_ifs
      · omega
      · rw [List.length_append]
        omega
    · -- the first dot is the same
      rw [List.append_assoc, List.cons_append] at htail
      rw [← htail, takeWhile_isNameChar_dot hfirst] at htake
      subst htake
      obtain rfl : second ++ tail = rest := by simpa using htail
      have hmember : ¬ (second ++ tail.takeWhile isNameChar).isEmpty = true := by
        simp [hsecond.1]
      rw [List.takeWhile_append_of_pos hsecond.2, if_neg hmember]
      simp only [List.length_append, List.length_cons]
      omega

theorem isDottedName_dottedHead {run : Text} (hrun : ∀ c ∈ run, isDottedChar c = true)
    (hne : run ≠ []) (hhead : run.head? ≠ some '.') :
    dottedHead run <+: run ∧ IsDottedName (dottedHead run) := by
  obtain ⟨owner, howner, rfl | ⟨rest, rfl⟩⟩ := exists_owner hrun hne hhead
  · rw [dottedHead_name howner]
    exact ⟨List.prefix_rfl, .inl howner⟩
  · rw [dottedHead_dot howner]
    split_ifs with hempty
    · exact ⟨List.prefix_append _ _, .inl howner⟩
    · refine ⟨?_, .inr ⟨_, _, rfl, howner, by simpa using hempty, ?_⟩⟩
      · rw [List.prefix_append_right_inj, List.cons_prefix_cons]
        exact ⟨rfl, List.takeWhile_prefix isNameChar⟩
      · exact fun c hc => List.mem_takeWhile_imp hc

end Longest

/-- **The member is the longest name that its run starts with.** -/
theorem dottedWord?_eq_some_iff {word : WordSpan} : text.dottedWord? offset = some word ↔
    ∃ run, runAt? isDottedChar text offset = some run ∧ IsMemberWord run word := by
  cases hrunAt : runAt? isDottedChar text offset with
  | none => simp [dottedWord?, hrunAt]
  | some run =>
    obtain ⟨hne, before, after, hrun, -⟩ := exists_isRun_of_runAt? hrunAt
    simp only [Option.some_inj, exists_eq_left']
    rw [dottedWord?, hrunAt]
    dsimp only
    split_ifs with htest
    · simp only [Bool.and_eq_true, List.elem_eq_mem, decide_eq_true_eq] at htest
      obtain ⟨hdot, hhead⟩ := htest
      obtain ⟨hstarts, hname⟩ := isDottedName_dottedHead hrun.admitted hne hhead
      have hlongest : ∀ head, head <+: run.text → IsDottedName head →
          head.length ≤ (dottedHead run.text).length :=
        fun head => length_le_dottedHead hrun.admitted hne hhead
      constructor
      · intro h
        cases h
        exact ⟨hdot, hhead, rfl, hstarts, hname, hlongest⟩
      · intro h
        -- two heads of a run that are both longest are the same
        have hlength := Nat.le_antisymm (h.longest _ hstarts hname)
          (hlongest _ h.head_of h.name)
        have htext := (List.prefix_of_prefix_length_le hstarts h.head_of hlength.le).eq_of_length
          hlength
        rw [htext, ← h.start]
    · refine iff_of_false (by simp) fun h => htest ?_
      simp [h.dot, h.head]

/-! ### Both kinds of words -/

/-- What is found at a cursor that touches a run, where `Cut` says how a word is cut from a run. -/
structure Resolves (Cut : WordSpan → WordSpan → Prop) (text : Text)
    (find? : Nat → Option WordSpan) (offset : Nat) (run : ByteRange) : Prop where
  /-- There is a word just if the cursor stands at a boundary and one can be cut from the run. -/
  some_iff : ∀ word, find? offset = some word ↔
    text.IsBoundary (min offset text.byteLength) ∧
      ∃ piece, text.slice? run = some piece ∧ Cut ⟨run.start, piece⟩ word
  /-- The word can be sliced. -/
  isSlice : ∀ word, find? offset = some word → IsSlice text word.bytes word.text
  /-- All cursors of the run find the same. -/
  steady : ∀ other, run.start ≤ other → other ≤ run.stop → find? other = find? offset

/-- A rule for cutting words from runs cuts them out of the middle. -/
def Cuts (Cut : WordSpan → WordSpan → Prop) : Prop :=
  ∀ run word, Cut run word → word.text ≠ [] ∧
    ∃ left right, run.text = left ++ word.text ++ right ∧ word.start = run.start + byteLength left

theorem exists_resolves {Cut : WordSpan → WordSpan → Prop} {find? : Nat → Option WordSpan}
    (hadmits : OneByte admits) (hcut : Cuts Cut) (hfind : ∀ offset word,
      find? offset = some word ↔ ∃ run, runAt? admits text offset = some run ∧ Cut run word)
    (offset : Nat) :
    ∃ run, (∀ r, IsByteRun admits text (min offset text.byteLength) r ↔ r = run) ∧
      Resolves Cut text find? offset run := by
  obtain ⟨run, hrun, hfound, hsteady⟩ := exists_isByteRun hadmits text offset
  refine ⟨run, fun r => ⟨fun hr => hr.eq hrun, fun hr => hr ▸ hrun⟩, ?_, ?_, ?_⟩
  · intro word
    rw [hfind]
    constructor
    · rintro ⟨span, hspan, hword⟩
      obtain ⟨hboundary, -, hstart, hslice⟩ := (hfound span).1 hspan
      refine ⟨hboundary, span.text, hslice, ?_⟩
      rwa [← hstart]
    · rintro ⟨hboundary, piece, hslice, hword⟩
      refine ⟨_, (hfound _).2 ⟨hboundary, ?_, rfl, hslice⟩, hword⟩
      obtain ⟨hne, left, right, hpiece, -⟩ := hcut _ _ hword
      intro hnil
      have hword : word.text = [] := by simp_all
      exact hne hword
  · intro word hword
    obtain ⟨span, hspan, hcutword⟩ := (hfind offset word).1 hword
    obtain ⟨-, before, after, hisRun, hstart⟩ := exists_isRun_of_runAt? hspan
    obtain ⟨-, left, right, hpiece, hwordStart⟩ := hcut _ _ hcutword
    have hslice := isSlice_append (before ++ left) word.text (right ++ after)
    have htext : before ++ left ++ word.text ++ (right ++ after) = text := by
      rw [hisRun.eq, hpiece]
      simp only [List.append_assoc]
    rw [htext, byteLength_append, ← hstart, ← hwordStart] at hslice
    exact hslice
  · intro other hlo hhi
    refine Option.ext fun word => ?_
    rw [hfind, hfind, hsteady other hlo hhi]

theorem cuts_isPlainWord : Cuts IsPlainWord := by
  rintro run word ⟨hne, ⟨rfl, -⟩ | ⟨htext, hstart⟩⟩
  · exact ⟨hne, [], [], by simp, rfl⟩
  · exact ⟨hne, ['@'], [], by simp [htext], hstart⟩

theorem cuts_isMemberWord : Cuts IsMemberWord := by
  intro run word h
  obtain ⟨tail, htail⟩ := h.head_of
  refine ⟨?_, [], tail, htail.symm, h.start⟩
  rcases h.name with hname | ⟨owner, member, htext, -⟩
  · exact hname.1
  · simp [htext]

/-- **The words under a cursor.**  At every cursor there is one run of bytes that touches it and
cannot be extended, for plain words and for members.  The word under the cursor is cut from that
run: a plain word is the run without one leading `@`, and a member is the longest name, with a dot
in it or without, at the start of a run that has a dot and does not start with one.  There is no
word inside a character, every word can be sliced out of the text, and all cursors of the run find
the same word. -/
theorem words_under_cursor (text : Text) (offset : Nat) :
    (∃ run, (∀ r, IsByteRun isSimpleChar text (min offset text.byteLength) r ↔ r = run) ∧
      Resolves IsPlainWord text text.simpleWord? offset run) ∧
    ∃ run, (∀ r, IsByteRun isDottedChar text (min offset text.byteLength) r ↔ r = run) ∧
      Resolves IsMemberWord text text.dottedWord? offset run :=
  ⟨exists_resolves oneByte_isSimpleChar cuts_isPlainWord (fun _ _ => simpleWord?_eq_some_iff)
      offset,
    exists_resolves oneByte_isDottedChar cuts_isMemberWord (fun _ _ => dottedWord?_eq_some_iff)
      offset⟩

end Text

end OpcodeLens
