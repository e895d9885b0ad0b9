import OpcodeLens.Editor.Highlight
import OpcodeLens.Proofs.Token.Place

/-!
# Relative tokens decode to the classified tokens

Editors add up the differences they receive.  Highlighted tokens stand one after the other, so no
difference is below zero, and adding them up leads to the ranges of the tokens again.

* `Highlight.decode` : the absolute tokens that an editor reads off relative ones.
* `Highlight.classifyAt?`, `Highlight.placed` : the classified tokens by their index in the token
  list, each with its range; `Highlight.classified_eq_filterMap` ties them to the walk that keeps
  the last two tokens.
* `Highlight.encodeFrom?` : relative tokens, with every difference checked.
* `Highlight.InOrder` : what is needed of ranges to encode and decode them.  It is kept when the
  first range is passed (`InOrder.tail`), and holds of the ranges of classified tokens
  (`inOrder_placed`).
* `Highlight.decode_deltas_classified` : **decoding gives back the classified tokens.**
-/

namespace OpcodeLens

namespace Highlight

variable {cat : Catalogue} {text : Text}

/-! ### Decoding -/

/-- The token that `d` stands for after one that starts at `previous`. -/
def Delta.mark (previous : Position) (d : Delta) : Mark :=
  ⟨if d.line = 0 then ⟨previous.line, previous.character + d.start⟩
    else ⟨previous.line + d.line, d.start⟩, d.length, d.info⟩

/-- The tokens that relative ones stand for, the first one after a token that starts at
`previous`. -/
def decodeFrom (previous : Position) : List Delta → List Mark
  | [] => []
  | d :: rest => d.mark previous :: decodeFrom (d.mark previous).start rest

/-- The tokens that the relative tokens of a document stand for. -/
def decode (ds : List Delta) : List Mark := decodeFrom .zero ds

/-- The stretch of the document that a highlighted token covers. -/
def Mark.range (m : Mark) : Range := ⟨m.start, ⟨m.start.line, m.start.character + m.length⟩⟩

/-- **A difference leads back to the token.** -/
theorem Mark.mark_delta {previous : Position} {m : Mark} (h : previous ≤ m.start) :
    (m.delta previous).mark previous = m := by
  obtain ⟨⟨line, character⟩, length, info⟩ := m
  rw [Position.le_iff] at h
  simp only [Mark.delta, Delta.mark, Mark.mk.injEq, and_true]
  rcases h with hline | ⟨hline, hcharacter⟩
  · dsimp only at hline
    rw [if_neg (by omega), if_neg (by omega), Nat.add_sub_cancel' hline.le]
  · dsimp only at hline hcharacter
    rw [if_pos (by omega), if_pos (by omega), Nat.add_sub_cancel' hcharacter, hline]

/-! ### Checked differences -/

/-- The difference of two numbers, unless it is below zero. -/
def difference? (a b : Nat) : Option Nat := if b ≤ a then some (a - b) else none

/-- A token of the given range relative to one that starts at `previous`, if no difference that is
taken for it is below zero. -/
def Delta.between? (previous : Position) (range : Range) (info : Class) : Option Delta := do
  let line ← difference? range.start.line previous.line
  let start ←
    if line = 0 then difference? range.start.character previous.character
    else some range.start.character
  let length ← difference? range.stop.character range.start.character
  return ⟨line, start, length, info⟩

/-- Tokens of the given ranges relative to one another, the first one to `previous`, if no
difference is below zero. -/
def encodeFrom? (previous : Position) : List (Range × Class) → Option (List Delta)
  | [] => some []
  | (range, info) :: rest => do
    let first ← Delta.between? previous range info
    let others ← encodeFrom? range.start rest
    return first :: others

/-- A highlighted token of the given range. -/
def Mark.ofRange (range : Range) (info : Class) : Mark :=
  ⟨range.start, range.stop.character - range.start.character, info⟩

theorem Delta.between?_eq_some {previous : Position} {range : Range} (info : Class)
    (hstart : previous ≤ range.start) (hstop : range.start.character ≤ range.stop.character) :
    Delta.between? previous range info = some ((Mark.ofRange range info).delta previous) := by
  rw [Position.le_iff] at hstart
  have hline : previous.line ≤ range.start.line := by omega
  by_cases hsame : range.start.line - previous.line = 0
  · have hcharacter : previous.character ≤ range.start.character := by omega
    simp [Delta.between?, difference?, Mark.delta, Mark.ofRange, hline, hstop, hsame, hcharacter]
  · simp [Delta.between?, difference?, Mark.delta, Mark.ofRange, hline, hstop, hsame]

/-! ### Ranges in order -/

/-- Ranges from `previous` on: each is a part of one line and not empty, and no range starts before
the end of an earlier one. -/
structure InOrder (previous : Position) (ranges : List (Range × Class)) : Prop where
  /-- Each range is a part of one line. -/
  single : ∀ r ∈ ranges, r.1.start.line = r.1.stop.line
  /-- No range is empty. -/
  proper : ∀ r ∈ ranges, r.1.start.character < r.1.stop.character
  /-- No range starts before `previous`. -/
  after : ∀ r ∈ ranges, previous ≤ r.1.start
  /-- No range starts before the end of an earlier one. -/
  ordered : ranges.Pairwise fun r s => r.1.stop ≤ s.1.start

namespace InOrder

variable {previous : Position} {range : Range} {info : Class} {ranges : List (Range × Class)}

theorem tail (h : InOrder previous ((range, info) :: ranges)) : InOrder range.start ranges where
  single := (List.forall_mem_cons.1 h.single).2
  proper := (List.forall_mem_cons.1 h.proper).2
  after := by
    intro r hr
    have hstop : range.stop ≤ r.1.start := List.rel_of_pairwise_cons h.ordered hr
    refine le_trans (Position.le_iff.2 (.inr ⟨?_, Nat.le_of_lt ?_⟩)) hstop
    · exact h.single _ List.mem_cons_self
    · exact h.proper _ List.mem_cons_self
  ordered := h.ordered.of_cons

/-- **No difference between ranges in order is below zero.** -/
theorem encodeFrom?_eq_some (h : InOrder previous ranges) :
    encodeFrom? previous ranges =
      some (deltasFrom previous (ranges.map fun (range, info) => Mark.ofRange range info)) := by
  induction ranges generalizing previous with
  | nil => rfl
  | cons r ranges ih =>
    obtain ⟨range, info⟩ := r
    have hfirst := Delta.between?_eq_some info (h.after _ List.mem_cons_self)
      (Nat.le_of_lt (h.proper _ List.mem_cons_self))
    simp only [encodeFrom?, hfirst, ih h.tail, Option.bind_eq_bind, Option.bind_some,
      Option.pure_def]
    rfl

/-- **The differences between ranges in order add up to the ranges.** -/
theorem decodeFrom_deltasFrom (h : InOrder previous ranges) :
    decodeFrom previous
        (deltasFrom previous (ranges.map fun (range, info) => Mark.ofRange range info)) =
      ranges.map fun (range, info) => Mark.ofRange range info := by
  induction ranges generalizing previous with
  | nil => rfl
  | cons r ranges ih =>
    obtain ⟨range, info⟩ := r
    have hfirst := Mark.mark_delta (m := .ofRange range info) (h.after _ List.mem_cons_self)
    rw [List.map_cons, deltasFrom, decodeFrom, hfirst]
    exact congrArg _ (ih h.tail)

end InOrder

/-! ### Classified tokens -/

/-- The token `n` places before place `i`. -/
def tokenBefore? (tokens : List Token) (i n : Nat) : Option Token :=
  if n ≤ i then tokens[i - n]? else none

/-- What the token at place `i` is, by the two tokens before it and the one after it. -/
def classifyAt? (cat : Catalogue) (tokens : List Token) (i : Nat) : Option Class :=
  tokens[i]?.bind fun t =>
    classify cat (tokenBefore? tokens i 2) (tokenBefore? tokens i 1) t tokens[i + 1]?

/-- The tokens of a script that are something, in order: the range of each, and what it is. -/
def placed (cat : Catalogue) (text : Text) : List (Range × Class) :=
  (Token.scan text).zipIdx.filterMap fun (t, i) =>
    (classifyAt? cat (Token.scan text) i).map fun c => (t.range text.lines, c)

theorem tokenBefore?_one (before after : List Token) :
    tokenBefore? (before ++ after) before.length 1 = before.getLast? := by
  rcases List.eq_nil_or_concat before with rfl | ⟨init, s, rfl⟩
  · rfl
  · simp [tokenBefore?]

theorem tokenBefore?_two (before after : List Token) :
    tokenBefore? (before ++ after) before.length 2 = before.dropLast.getLast? := by
  rcases List.eq_nil_or_concat before with rfl | ⟨init, s, rfl⟩
  · rfl
  · -- one place further on, one token more
    have hone := tokenBefore?_one init (s :: after)
    simpa [tokenBefore?] using hone

theorem classifyAt?_append (cat : Catalogue) (before : List Token) (t : Token)
    (rest : List Token) :
    classifyAt? cat (before ++ t :: rest) before.length =
      classify cat before.dropLast.getLast? before.getLast? t rest.head? := by
  have hnext : (before ++ t :: rest)[before.length + 1]? = rest.head? := by
    rw [List.getElem?_append_right (by omega), Nat.add_sub_cancel_left, List.head?_eq_getElem?,
      List.getElem?_cons_succ]
  rw [classifyAt?, tokenBefore?_one, tokenBefore?_two, hnext]
  simp

/-- **The walk that keeps the last two tokens classifies each token by its place.** -/
theorem classified_eq_filterMap (cat : Catalogue) (before tokens : List Token) :
    classified cat before.dropLast.getLast? before.getLast? tokens =
      (tokens.zipIdx before.length).filterMap fun (t, i) =>
        (classifyAt? cat (before ++ tokens) i).map fun c => (t, c) := by
  induction tokens generalizing before with
  | nil => rfl
  | cons t rest ih =>
    have hrest := ih (before ++ [t])
    rw [List.dropLast_concat, List.getLast?_concat, List.append_assoc, List.singleton_append,
      List.length_append, List.length_singleton] at hrest
    rw [classified, hrest, List.zipIdx_cons, List.filterMap_cons]
    dsimp only
    rw [classifyAt?_append]
    cases classify cat before.dropLast.getLast? before.getLast? t rest.head? <;> rfl

theorem placed_eq_map_classified (cat : Catalogue) (text : Text) :
    placed cat text =
      (classified cat none none (Token.scan text)).map fun (t, c) => (t.range text.lines, c) := by
  have h := classified_eq_filterMap cat [] (Token.scan text)
  rw [List.dropLast_nil, List.getLast?_nil, List.nil_append, List.length_nil] at h
  rw [h, List.map_filterMap, placed]
  simp only [Option.map_map]
  rfl

theorem marks_eq_map_placed (cat : Catalogue) (text : Text) :
    marks cat text = (placed cat text).map fun (range, info) => Mark.ofRange range info := by
  rw [placed_eq_map_classified, List.map_map]
  rfl

theorem isPiece_of_classify {older newer next : Option Token} {t : Token} {c : Class}
    (h : classify cat older newer t next = some c) : Token.IsPiece t.kind := by
  unfold classify at h
  constructor <;> intro hkind <;> simp [hkind] at h

theorem isPiece_of_mem_classified {older newer : Option Token} {tokens : List Token}
    {x : Token × Class} (hx : x ∈ classified cat older newer tokens) :
    Token.IsPiece x.1.kind := by
  fun_induction classified cat older newer tokens with
  | case1 => cases hx
  | case2 older newer t rest tail c hc ih =>
    rcases List.mem_cons.1 hx with rfl | hx
    · exact isPiece_of_classify hc
    · exact ih hx
  | case3 older newer t rest tail hc ih => exact ih hx

theorem classified_sublist (cat : Catalogue) (older newer : Option Token) (tokens : List Token) :
    ((classified cat older newer tokens).map Prod.fst).Sublist tokens := by
  fun_induction classified cat older newer tokens with
  | case1 => exact .slnil
  | case2 older newer t rest tail c hc ih => exact ih.cons_cons t
  | case3 older newer t rest tail hc ih => exact ih.cons t

theorem exists_around_of_mem_classified {x : Token × Class}
    (hx : x ∈ classified cat none none (Token.scan text)) :
    ∃ before head after, Token.Around text x.1 before head after :=
  Token.exists_around ((classified_sublist ..).subset (List.mem_map_of_mem hx))
    (isPiece_of_mem_classified hx)

/-- **The ranges of classified tokens are in order.** -/
theorem inOrder_placed (cat : Catalogue) (text : Text) : InOrder .zero (placed cat text) := by
  rw [placed_eq_map_classified]
  refine ⟨?_, ?_, fun r _ => Position.zero_le r.1.start, ?_⟩
  · exact List.forall_mem_map.2 fun x _ => rfl
  · rintro _ hr
    obtain ⟨⟨t, c⟩, hx, rfl⟩ := List.mem_map.1 hr
    obtain ⟨before, head, after, h⟩ := exists_around_of_mem_classified hx
    dsimp only at h ⊢
    have := Text.unitLength_pos h.proper.1
    rw [h.range_eq]
    dsimp only
    omega
  · have hordered := (Token.scan_pairwise_precedes text).sublist
      (classified_sublist cat none none (Token.scan text))
    rw [List.pairwise_map] at hordered ⊢
    refine hordered.imp_of_mem fun {x y} hx hy h => ?_
    obtain ⟨_, _, _, hx'⟩ := exists_around_of_mem_classified hx
    obtain ⟨_, _, _, hy'⟩ := exists_around_of_mem_classified hy
    exact hx'.range_stop_le hy' (h (isPiece_of_mem_classified hx) (isPiece_of_mem_classified hy))

theorem placed_le {r : Range × Class} (hr : r ∈ placed cat text) :
    r.1.stop.line ≤ text.byteLength ∧ r.1.stop.character ≤ text.byteLength := by
  rw [placed_eq_map_classified] at hr
  obtain ⟨x, hx, rfl⟩ := List.mem_map.1 hr
  obtain ⟨before, head, after, h⟩ := exists_around_of_mem_classified hx
  exact h.place_le.2.2

/-! ### Whole documents -/

/-- **What an editor reads are the highlighted tokens.** -/
theorem decode_deltas (cat : Catalogue) (text : Text) :
    decode (deltas cat text) = marks cat text := by
  rw [decode, deltas, marks_eq_map_placed]
  exact (inOrder_placed cat text).decodeFrom_deltasFrom

theorem Mark.range_ofRange {range : Range} (info : Class)
    (hline : range.start.line = range.stop.line)
    (hcharacter : range.start.character ≤ range.stop.character) :
    (Mark.ofRange range info).range = range := by
  obtain ⟨⟨line, start⟩, ⟨line', stop⟩⟩ := range
  obtain rfl : line = line' := hline
  simp only [Mark.range, Mark.ofRange, Nat.add_sub_cancel' hcharacter]

theorem map_range_marks (cat : Catalogue) (text : Text) :
    (marks cat text).map (fun m => (m.range, m.info)) = placed cat text := by
  have horder := inOrder_placed cat text
  rw [marks_eq_map_placed, List.map_map]
  conv_rhs => rw [← List.map_id (placed cat text)]
  refine List.map_congr_left fun r hr => ?_
  have hrange := Mark.range_ofRange r.2 (horder.single r hr) (Nat.le_of_lt (horder.proper r hr))
  exact Prod.ext hrange rfl

/-- **Decoding gives back the classified tokens.**  No difference that is taken to encode the
highlighted tokens of a script is below zero.  An editor that adds up the differences finds, in
order, exactly the ranges of the tokens that are something, with what they are.  None of them is
empty, each starts after the one before it, and none starts before the end of an earlier one.  In a
script whose positions are written with 32-bit words, all numbers fit in them. -/
theorem decode_deltas_classified (cat : Catalogue) (text : Text)
    (hsize : text.byteLength < UInt32.size) :
    encodeFrom? .zero (placed cat text) = some (deltas cat text) ∧
    (decode (deltas cat text)).map (fun m => (m.range, m.info)) = placed cat text ∧
    (∀ m ∈ decode (deltas cat text), 0 < m.length) ∧
    (decode (deltas cat text)).Pairwise (fun m n => m.start < n.start ∧
      (m.start.line = n.start.line → m.start.character + m.length ≤ n.start.character)) ∧
    ∀ m ∈ decode (deltas cat text), m.start.line < UInt32.size ∧
      m.start.character + m.length < UInt32.size := by
  have horder := inOrder_placed cat text
  have hmarks : ∀ m ∈ marks cat text, (m.range, m.info) ∈ placed cat text := fun m hm => by
    rw [← map_range_marks]
    exact List.mem_map_of_mem hm
  have hproper : ∀ m ∈ marks cat text, 0 < m.length := fun m hm => by
    have := horder.proper _ (hmarks m hm)
    rw [Mark.range] at this
    dsimp only at this
    omega
  rw [decode_deltas]
  refine ⟨?_, map_range_marks cat text, hproper, ?_, fun m hm => ?_⟩
  · rw [deltas, marks_eq_map_placed]
    exact horder.encodeFrom?_eq_some
  · have hpairs := horder.ordered
    rw [← map_range_marks, List.pairwise_map] at hpairs
    refine hpairs.imp_of_mem fun {m n} hm _ hle => ?_
    have := hproper m hm
    rw [Position.le_iff, Mark.range, Mark.range] at hle
    rw [Position.lt_iff]
    dsimp only at hle
    omega
  · have := placed_le (hmarks m hm)
    rw [Mark.range] at this
    dsimp only at this
    omega

/-- One command, with its place in a class. -/
def clock : Catalogue :=
  .ofCommands
    [{ id := "0001".toList, name := "wait".toList
       className := some "Clock".toList, memberName := some "Wait".toList }]

/-- A member after its class, a variable after characters of two units, and a second line. -/
theorem decode_deltas_clock :
    Text.byteLength "Clock.Wait \"😀😀\" $t\r\n wait(1)".toList < UInt32.size ∧
    (decode (deltas clock "Clock.Wait \"😀😀\" $t\r\n wait(1)".toList)).map
        (fun m => (m.range, m.info)) =
      [(⟨⟨0, 0⟩, ⟨0, 5⟩⟩, ⟨.classKind, none⟩), (⟨⟨0, 6⟩, ⟨0, 10⟩⟩, ⟨.method, none⟩),
       (⟨⟨0, 11⟩, ⟨0, 17⟩⟩, ⟨.string, none⟩), (⟨⟨0, 18⟩, ⟨0, 20⟩⟩, ⟨.variable, none⟩),
       (⟨⟨1, 1⟩, ⟨1, 5⟩⟩, ⟨.function, none⟩), (⟨⟨1, 6⟩, ⟨1, 7⟩⟩, ⟨.number, none⟩)] := by
  have hsize : Text.byteLength "Clock.Wait \"😀😀\" $t\r\n wait(1)".toList < UInt32.size := by
    decide
  refine ⟨hsize, (decode_deltas_classified clock _ hsize).2.1.trans ?_⟩
  decide +kernel

end Highlight

end OpcodeLens
