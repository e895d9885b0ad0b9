import OpcodeLens.Proofs.Token.Place

/-!
# The lexical grammar

Each kind of token has a language: the texts that such a token can have, given the rest of the line
after it.  What follows a token matters, since a token takes as much of its line as it can.  The
grammar below says so without the scanner, and the scanner finds exactly what the grammar allows.

* `Token.Lexical` : the language of each kind; `Token.Lexeme` : the same with the characters at
  which none of them can start.
* `Token.munch_of_lexical`, `Token.lexical_munch` : **what the grammar allows is taken, and what is
  taken is allowed.**
* `Token.Lexeme.unique` : at one place in a line the grammar allows one token.
* `Token.scan_follows_grammar` : **the tokens of a script follow the grammar.**
-/

namespace OpcodeLens

namespace Token

variable {c d tag quote : Char} {run text text' more rest rest' : Text} {kind kind' : TokenKind}
  {n i : Nat} {admits : Char → Bool} {t : Token}

/-! ### The languages -/

/-- The characters of `run` are admitted, and the character after them is not. -/
def Fills (admits : Char → Bool) (run rest : Text) : Prop :=
  (∀ c ∈ run, admits c = true) ∧ ∀ c ∈ rest.head?, admits c = false

/-- A tag with a name after it. -/
def IsTagged (tag : Char) (text rest : Text) : Prop :=
  ∃ name, text = tag :: name ∧ Fills Text.isNameChar name rest

/-- A name that does not start with a digit. -/
def IsName (text rest : Text) : Prop :=
  ∃ first more, text = first :: more ∧ (first.isAlpha = true ∨ first = '_') ∧
    Fills Text.isNameChar more rest

/-- One digit or more. -/
def IsDigits (text : Text) : Prop := text ≠ [] ∧ ∀ c ∈ text, c.isDigit = true

/-- Digits with one of the given marks after them. -/
def IsMarked (marks text : Text) : Prop :=
  ∃ digits mark, text = digits ++ [mark] ∧ IsDigits digits ∧ mark ∈ marks

/-- Digits that are not part of anything longer. -/
def IsWhole (text rest : Text) : Prop :=
  IsDigits text ∧
    ∀ c ∈ rest.head?, c.isDigit = false ∧ c ∉ ['.', '@', 'i', 'f', 's', 'v']

/-- Digits, a point, and all digits that follow it. -/
def IsPointed (text rest : Text) : Prop :=
  ∃ whole fraction, text = whole ++ '.' :: fraction ∧ IsDigits whole ∧
    Fills Char.isDigit fraction rest

/-- The character at index `i` is escaped: a backslash stands right before it that is not escaped
itself. -/
def Escaped (text : Text) : Nat → Prop
  | 0 => False
  | i + 1 => text[i]? = some '\\' ∧ ¬ Escaped text i

/-- The character at index `i` is the quote, and it is not escaped. -/
def Closes (quote : Char) (text : Text) (i : Nat) : Prop :=
  text[i]? = some quote ∧ ¬ Escaped text i

/-- A string that was opened by the quote takes the first `n` characters of the text: up to the
first quote that closes it, or all of them if there is none. -/
def Quotes (quote : Char) (text : Text) (n : Nat) : Prop :=
  (∃ i, IsLeast {i | Closes quote text i} i ∧ n = i + 1) ∨
    (∀ i, ¬ Closes quote text i) ∧ n = text.length

/-- A quote, and the string that it opens. -/
def IsQuoted (text rest : Text) : Prop :=
  ∃ quote more, text = quote :: more ∧ (quote = '\'' ∨ quote = '"') ∧
    Quotes quote (more ++ rest) more.length

/-- The language of a kind of token: the texts that a token of this kind can have, where `rest`
follows on the line. -/
def Lexical (kind : TokenKind) (text rest : Text) : Prop :=
  match kind with
  | .openRoundBracket => text = ['(']
  | .closeRoundBracket => text = [')']
  | .openSquareBracket => text = ['[']
  | .closeSquareBracket => text = [']']
  | .equals => text = ['='] ∧ rest.head? ≠ some '='
  | .comma => text = [',']
  | .dot => text = ['.']
  | .equalEqual => text = ['=', '=']
  | .plusEquals => text = ['+', '=']
  | .minusEquals => text = ['-', '=']
  | .labelJump => IsTagged '@' text rest
  | .labelDefine => IsTagged ':' text rest
  | .globalVar => IsTagged '$' text rest
  | .localVar => IsMarked ['@'] text
  | .arraySize => IsMarked ['i', 'f', 's', 'v'] text
  | .identifier => IsName text rest
  | .number => IsWhole text rest
  | .float => IsPointed text rest
  | .string => IsQuoted text rest
  | .unknown => False
  | .newLine => False
  | .eof => False

/-- A character that is no blank, at which no token of another kind can start, and which is not the
start of a comment. -/
def IsUnknown (text rest : Text) : Prop :=
  ∃ c, text = [c] ∧ Text.isBlank c = false ∧ ¬ (c = '/' ∧ rest.head? = some '/') ∧
    ∀ kind text' rest', text' ++ rest' = c :: rest → ¬ Lexical kind text' rest'

/-- The language of a kind of token, with those characters that belong to no other kind. -/
def Lexeme (kind : TokenKind) (text rest : Text) : Prop :=
  Lexical kind text rest ∨ kind = .unknown ∧ IsUnknown text rest

/-! ### Runs -/

theorem exists_fills (admits : Char → Bool) (text : Text) :
    ∃ run rest, text = run ++ rest ∧ Fills admits run rest :=
  ⟨text.takeWhile admits, text.dropWhile admits, List.takeWhile_append_dropWhile.symm,
    fun _ hc => List.mem_takeWhile_imp hc, Text.head?_dropWhile_of_not admits text⟩

/-- **A run is taken as a whole.** -/
theorem Fills.runLength_eq (h : Fills admits run rest) :
    runLength admits (run ++ rest) = run.length := by
  rw [runLength, Text.takeWhile_append_stop h.1 h.2]

/-! ### Strings -/

/-- What stands after a character that is no backslash is escaped as if it stood alone. -/
theorem escaped_cons (hc : c ≠ '\\') (text : Text) (i : Nat) :
    Escaped (c :: text) (i + 1) ↔ Escaped text i := by
  induction i with
  | zero => simp [Escaped, hc]
  | succ i ih => rw [Escaped, ih, List.getElem?_cons_succ, Escaped]

/-- What stands after an escaped character is escaped as if it stood alone. -/
theorem escaped_backslash (d : Char) (text : Text) (i : Nat) :
    Escaped ('\\' :: d :: text) (i + 2) ↔ Escaped text i := by
  induction i with
  | zero => simp [Escaped]
  | succ i ih => rw [Escaped, ih, List.getElem?_cons_succ, List.getElem?_cons_succ, Escaped]

/-- Where a string ends does not change when `k` characters that do not close it are put in
front. -/
theorem Quotes.shift {k : Nat} (hlength : text'.length = text.length + k)
    (hbefore : ∀ i < k, ¬ Closes quote text' i)
    (hafter : ∀ i, Closes quote text' (i + k) ↔ Closes quote text i) (h : Quotes quote text n) :
    Quotes quote text' (n + k) := by
  rcases h with ⟨i, ⟨hi, hleast⟩, rfl⟩ | ⟨hnone, rfl⟩
  · refine .inl ⟨i + k, ⟨(hafter i).2 hi, fun j hj => ?_⟩, by omega⟩
    by_cases hjk : j < k
    · exact absurd hj (hbefore j hjk)
    · obtain ⟨j, rfl⟩ := Nat.exists_eq_add_of_le' (Nat.le_of_not_lt hjk)
      have := hleast ((hafter j).1 hj)
      omega
  · refine .inr ⟨fun j hj => ?_, hlength.symm⟩
    by_cases hjk : j < k
    · exact hbefore j hjk hj
    · obtain ⟨j, rfl⟩ := Nat.exists_eq_add_of_le' (Nat.le_of_not_lt hjk)
      exact hnone j ((hafter j).1 hj)

/-- **A string is taken up to the quote that closes it.** -/
theorem quotes_quotedLength (hquote : quote ≠ '\\') (text : Text) :
    Quotes quote text (quotedLength quote text) := by
  fun_induction quotedLength quote text with
  | case1 => exact .inr ⟨fun i h => by simp [Closes] at h, rfl⟩
  | case2 c =>
    by_cases hc : c = quote
    · exact .inl ⟨0, ⟨⟨by simp [hc], id⟩, fun _ _ => Nat.zero_le _⟩, rfl⟩
    · refine .inr ⟨fun i h => ?_, rfl⟩
      cases i with
      | zero => exact hc (by simpa using h.1)
      | succ i => simp [Closes] at h
  | case3 d rest ih =>
    rw [Nat.add_comm]
    refine ih.shift rfl (fun i hi h => ?_) fun i => ?_
    · -- neither the backslash nor the character after it closes the string
      cases i with
      | zero => exact hquote.symm (by simpa using h.1)
      | succ i =>
        obtain rfl : i = 0 := by omega
        exact h.2 ⟨rfl, id⟩
    · rw [Closes, Closes, escaped_backslash, List.getElem?_cons_succ, List.getElem?_cons_succ]
  | case4 d rest =>
    exact .inl ⟨0, ⟨⟨rfl, id⟩, fun _ _ => Nat.zero_le _⟩, rfl⟩
  | case5 c d rest hc hne ih =>
    rw [Nat.add_comm]
    refine ih.shift rfl (fun i hi h => ?_) fun i => ?_
    · obtain rfl : i = 0 := by omega
      exact hne (by simpa using h.1)
    · rw [Closes, Closes, escaped_cons hc, List.getElem?_cons_succ]

/-- There is one place where a string ends. -/
theorem Quotes.eq {m : Nat} (hn : Quotes quote text n) (hm : Quotes quote text m) : n = m := by
  rcases hn with ⟨i, hi, rfl⟩ | ⟨hnone, rfl⟩
  · rcases hm with ⟨j, hj, rfl⟩ | ⟨hnone, rfl⟩
    · rw [hi.unique hj]
    · exact absurd hi.1 (hnone i)
  · rcases hm with ⟨j, hj, rfl⟩ | ⟨-, rfl⟩
    · exact absurd hj.1 (hnone j)
    · rfl

/-! ### Numbers -/

theorem munchNumber_marked {mark : Char} (hrun : ∀ c ∈ run, c.isDigit = true)
    (hmark : markKind? mark = some kind) (rest : Text) :
    munchNumber (run ++ mark :: rest) = (kind, run.length + 1) := by
  have hfills : Fills Char.isDigit run (mark :: rest) := by
    refine ⟨hrun, ?_⟩
    rintro c ⟨⟩
    unfold markKind? at hmark
    split at hmark <;> cases hmark <;> rfl
  simp only [munchNumber, hfills.runLength_eq, List.drop_left, hmark]

theorem munchNumber_pointed (hrun : ∀ c ∈ run, c.isDigit = true) (rest : Text) :
    munchNumber (run ++ '.' :: rest) = (.float, run.length + 1 + runLength Char.isDigit rest) := by
  have hfills : Fills Char.isDigit run ('.' :: rest) := by
    refine ⟨hrun, ?_⟩
    rintro c ⟨⟩
    rfl
  have hmark : markKind? '.' = none := rfl
  simp only [munchNumber, hfills.runLength_eq, List.drop_left, hmark, if_true]

theorem munchNumber_whole (hfills : Fills Char.isDigit run rest)
    (hrest : ∀ c ∈ rest.head?, markKind? c = none ∧ c ≠ '.') :
    munchNumber (run ++ rest) = (.number, run.length) := by
  simp only [munchNumber, hfills.runLength_eq, List.drop_left]
  cases rest with
  | nil => rfl
  | cons c rest =>
    obtain ⟨hmark, hpoint⟩ := hrest c rfl
    simp only [hmark, if_neg hpoint]

theorem markKind?_eq_none_iff : markKind? c = none ↔ c ∉ ['@', 'i', 'f', 's', 'v'] := by
  unfold markKind?
  split <;> simp_all

/-! ### What the grammar allows is taken -/

/-- The characters that start an operator, a bracket or a tagged name. -/
def signs : Text := ['=', '+', '-', '(', ')', '[', ']', ',', '.', '@', ':', '$']

theorem not_mem_signs_of_isNameChar (h : Text.isNameChar c = true) : c ∉ signs := by
  intro hmem
  have hall : signs.all (fun d => !Text.isNameChar d) = true := by decide
  have := List.all_eq_true.1 hall c hmem
  simp [h] at this

theorem isNameChar_of_start (h : c.isAlpha = true ∨ c = '_') : Text.isNameChar c = true := by
  rcases h with h | rfl
  · rw [Text.isNameChar, Char.isAlphanum, h, Bool.true_or, Bool.true_or]
  · rfl

theorem isNameChar_of_isDigit (h : c.isDigit = true) : Text.isNameChar c = true := by
  rw [Text.isNameChar, Char.isAlphanum, h, Bool.or_true, Bool.true_or]

theorem not_isAlpha_of_isDigit (h : c.isDigit = true) : c.isAlpha = false := by
  unfold Char.isDigit at h
  unfold Char.isAlpha Char.isUpper Char.isLower
  simp only [Bool.and_eq_true, decide_eq_true_eq, UInt32.le_iff_toNat_le] at h
  simp only [Bool.or_eq_false_iff, Bool.and_eq_false_iff, decide_eq_false_iff_not,
    UInt32.le_iff_toNat_le]
  have hnine : '9'.val.toNat = 57 := rfl
  have hupper : 'A'.val.toNat = 65 := rfl
  have hlower : 'a'.val.toNat = 97 := rfl
  omega

theorem operatorKind?_eq_none (h : c ∉ ['=', '+', '-']) (rest : Text) :
    rest.head?.bind (operatorKind? c) = none := by
  refine Option.bind_eq_none_iff.2 fun d _ => ?_
  unfold operatorKind?
  split <;> simp_all

/-- A character that is no sign starts a name, a number, a string or nothing. -/
theorem munch_of_not_mem_signs (h : c ∉ signs) (rest : Text) :
    munch c rest =
      if (c.isAlpha || c = '_') = true then (.identifier, runLength Text.isNameChar rest)
      else if c.isDigit = true then munchNumber rest
      else if (c = '\'' || c = '"') = true then (.string, quotedLength c rest)
      else (.unknown, 0) := by
  simp only [signs, List.mem_cons, List.not_mem_nil, or_false, not_or] at h
  have hop : rest.head?.bind (operatorKind? c) = none := operatorKind?_eq_none (by simp [h]) rest
  have hsingle : singleKind? c = none := by
    unfold singleKind?
    split <;> simp_all
  have htag : tagKind? c = none := by
    unfold tagKind?
    split <;> simp_all
  simp only [munch, hop, hsingle, htag]

theorem munch_of_operator {sign : Char} (h : c :: more = [sign, d])
    (hkind : operatorKind? sign d = some kind) : munch c (more ++ rest) = (kind, more.length) := by
  cases h
  simp only [munch, List.cons_append, List.head?_cons, Option.bind_some, hkind, List.length_cons,
    List.length_nil]

theorem munch_of_single {sign : Char} (h : c :: more = [sign])
    (hkind : singleKind? sign = some kind) (hop : rest.head?.bind (operatorKind? sign) = none) :
    munch c (more ++ rest) = (kind, more.length) := by
  cases h
  simp only [munch, List.nil_append, hop, hkind, List.length_nil]

theorem munch_of_tagged (h : IsTagged tag (c :: more) rest) (hkind : tagKind? tag = some kind)
    (hop : tag ∉ ['=', '+', '-']) (hsingle : singleKind? tag = none) :
    munch c (more ++ rest) = (kind, more.length) := by
  obtain ⟨name, htext, hname⟩ := h
  cases htext
  simp only [munch, operatorKind?_eq_none hop, hsingle, hkind, hname.runLength_eq]

theorem munch_of_name (h : IsName (c :: more) rest) :
    munch c (more ++ rest) = (.identifier, more.length) := by
  obtain ⟨first, name, htext, hfirst, hname⟩ := h
  cases htext
  have hsign : c ∉ signs := not_mem_signs_of_isNameChar (isNameChar_of_start hfirst)
  have hstart : (c.isAlpha || c = '_') = true := by simpa using hfirst
  rw [munch_of_not_mem_signs hsign, if_pos hstart, hname.runLength_eq]

theorem munch_of_digit (h : c.isDigit = true) (rest : Text) : munch c rest = munchNumber rest := by
  have hsign := not_mem_signs_of_isNameChar (isNameChar_of_isDigit h)
  have hstart : ¬ (c.isAlpha || c = '_') = true := by
    rw [not_isAlpha_of_isDigit h, Bool.false_or, decide_eq_true_eq]
    rintro rfl
    cases h
  rw [munch_of_not_mem_signs hsign, if_neg hstart, if_pos h]

theorem IsDigits.exists_cons {digits tail : Text} (h : IsDigits digits)
    (htext : c :: more = digits ++ tail) :
    ∃ run, more = run ++ tail ∧ c.isDigit = true ∧ ∀ d ∈ run, d.isDigit = true := by
  obtain ⟨hne, hdigit⟩ := h
  obtain ⟨first, run, rfl⟩ := List.exists_cons_of_ne_nil hne
  obtain ⟨rfl, rfl⟩ := List.cons_eq_cons.1 htext
  obtain ⟨hc, hrun⟩ := List.forall_mem_cons.1 hdigit
  exact ⟨run, rfl, hc, hrun⟩

theorem munch_of_marked {marks : Text} (h : IsMarked marks (c :: more))
    (hmarks : marks.all (fun mark => markKind? mark = some kind) = true) :
    munch c (more ++ rest) = (kind, more.length) := by
  obtain ⟨digits, mark, htext, hdigits, hmem⟩ := h
  obtain ⟨run, rfl, hc, hrun⟩ := hdigits.exists_cons htext
  have hmark : markKind? mark = some kind := by simpa using List.all_eq_true.1 hmarks mark hmem
  rw [munch_of_digit hc, List.append_assoc, List.singleton_append, munchNumber_marked hrun hmark,
    List.length_append, List.length_singleton]

theorem munch_of_whole (h : IsWhole (c :: more) rest) :
    munch c (more ++ rest) = (.number, more.length) := by
  obtain ⟨hdigits, hrest⟩ := h
  obtain ⟨run, htext, hc, hrun⟩ := hdigits.exists_cons (List.append_nil _).symm
  obtain rfl : more = run := by rw [htext, List.append_nil]
  rw [munch_of_digit hc, munchNumber_whole ⟨hrun, fun d hd => (hrest d hd).1⟩]
  intro d hd
  obtain ⟨-, hmark⟩ := hrest d hd
  rw [markKind?_eq_none_iff]
  rw [List.mem_cons, not_or] at hmark
  exact ⟨hmark.2, hmark.1⟩

theorem munch_of_pointed (h : IsPointed (c :: more) rest) :
    munch c (more ++ rest) = (.float, more.length) := by
  obtain ⟨whole, fraction, htext, hwhole, hfraction⟩ := h
  obtain ⟨run, rfl, hc, hrun⟩ := hwhole.exists_cons htext
  rw [munch_of_digit hc, List.append_assoc, List.cons_append, munchNumber_pointed hrun,
    hfraction.runLength_eq, List.length_append, List.length_cons, Nat.add_right_comm, Nat.add_assoc]

theorem munch_of_quoted (h : IsQuoted (c :: more) rest) :
    munch c (more ++ rest) = (.string, more.length) := by
  obtain ⟨quote, body, htext, hquote, hquotes⟩ := h
  cases htext
  have hlength : quotedLength c (more ++ rest) = more.length := by
    refine (quotes_quotedLength ?_ _).eq hquotes
    rcases hquote with rfl | rfl <;> decide
  rcases hquote with rfl | rfl
  · rw [munch_of_not_mem_signs (by decide), hlength]
    rfl
  · rw [munch_of_not_mem_signs (by decide), hlength]
    rfl

/-- **What the grammar allows is taken.** -/
theorem munch_of_lexical (h : Lexical kind (c :: more) rest) :
    munch c (more ++ rest) = (kind, more.length) := by
  cases kind with
  | openRoundBracket | closeRoundBracket | openSquareBracket | closeSquareBracket | comma | dot =>
    exact munch_of_single h rfl (operatorKind?_eq_none (by decide) rest)
  | equals =>
    obtain ⟨htext, hnext⟩ := h
    refine munch_of_single htext rfl (Option.bind_eq_none_iff.2 fun d hd => ?_)
    unfold operatorKind?
    split <;> simp_all
  | equalEqual | plusEquals | minusEquals => exact munch_of_operator h rfl
  | labelJump | labelDefine | globalVar => exact munch_of_tagged h rfl (by decide) rfl
  | localVar | arraySize => exact munch_of_marked h (by decide)
  | identifier => exact munch_of_name h
  | number => exact munch_of_whole h
  | float => exact munch_of_pointed h
  | string => exact munch_of_quoted h
  | unknown | newLine | eof => cases h

/-! ### What is taken is allowed -/

theorem exists_lexical_of_tagKind? (h : tagKind? c = some kind) (rest : Text) :
    ∃ more tail, rest = more ++ tail ∧ Lexical kind (c :: more) tail := by
  obtain ⟨name, tail, rfl, hname⟩ := exists_fills Text.isNameChar rest
  refine ⟨name, tail, rfl, ?_⟩
  unfold tagKind? at h
  split at h <;> cases h <;> exact ⟨name, rfl, hname⟩

theorem lexical_of_singleKind? (h : singleKind? c = some kind)
    (hop : rest.head?.bind (operatorKind? c) = none) : Lexical kind [c] rest := by
  unfold singleKind? at h
  split at h <;> cases h
  any_goals rfl
  -- a single `=`: a second one would have made it an operator
  refine ⟨rfl, fun hnext => ?_⟩
  rw [hnext] at hop
  cases hop

theorem exists_lexical_of_isDigit (h : c.isDigit = true) (rest : Text) :
    ∃ kind more tail, rest = more ++ tail ∧ Lexical kind (c :: more) tail := by
  obtain ⟨run, tail, rfl, hrun, hstop⟩ := exists_fills Char.isDigit rest
  have hdigits : IsDigits (c :: run) :=
    ⟨List.cons_ne_nil c run, List.forall_mem_cons.2 ⟨h, hrun⟩⟩
  cases tail with
  | nil => exact ⟨.number, run, [], rfl, hdigits, by simp⟩
  | cons d tail =>
    -- the character after the digits decides
    by_cases hpoint : d = '.'
    · subst hpoint
      obtain ⟨fraction, tail, rfl, hfraction⟩ := exists_fills Char.isDigit tail
      exact ⟨.float, run ++ '.' :: fraction, tail, by simp, c :: run, fraction, rfl, hdigits,
        hfraction⟩
    by_cases hlocal : d = '@'
    · exact ⟨.localVar, run ++ [d], tail, by simp, c :: run, d, rfl, hdigits, by simp [hlocal]⟩
    by_cases harray : d ∈ ['i', 'f', 's', 'v']
    · exact ⟨.arraySize, run ++ [d], tail, by simp, c :: run, d, rfl, hdigits, harray⟩
    refine ⟨.number, run, d :: tail, rfl, hdigits, ?_⟩
    rintro e ⟨⟩
    rw [List.mem_cons, List.mem_cons, not_or, not_or]
    exact ⟨hstop d rfl, hpoint, hlocal, harray⟩

theorem exists_lexical_of_quote (h : c = '\'' ∨ c = '"') (rest : Text) :
    ∃ more tail, rest = more ++ tail ∧ Lexical .string (c :: more) tail := by
  have hlength := quotedLength_le c rest
  refine ⟨rest.take (quotedLength c rest), rest.drop (quotedLength c rest),
    (List.take_append_drop _ _).symm, c, _, rfl, h, ?_⟩
  rw [List.take_append_drop, List.length_take, Nat.min_eq_left hlength]
  refine quotes_quotedLength ?_ rest
  rcases h with rfl | rfl <;> decide

/-- **What is taken is allowed**, if it is not a character on its own. -/
theorem lexical_munch (c : Char) (rest : Text) :
    munch c rest = (.unknown, 0) ∨
      ∃ kind more tail, rest = more ++ tail ∧ Lexical kind (c :: more) tail := by
  unfold munch
  split
  · next kind h =>
    obtain ⟨d, hd, hkind⟩ := Option.bind_eq_some_iff.1 h
    obtain ⟨tail, rfl⟩ := List.head?_eq_some_iff.1 hd
    refine .inr ⟨kind, [d], tail, rfl, ?_⟩
    unfold operatorKind? at hkind
    split at hkind <;> cases hkind <;> rfl
  · next hop =>
    split
    · next kind h => exact .inr ⟨kind, [], rest, rfl, lexical_of_singleKind? h hop⟩
    · split
      · next kind h => exact .inr ⟨kind, exists_lexical_of_tagKind? h rest⟩
      · split_ifs with hname hdigit hquote
        · obtain ⟨more, tail, rfl, hmore⟩ := exists_fills Text.isNameChar rest
          exact .inr ⟨.identifier, more, tail, rfl, c, more, rfl, by simpa using hname, hmore⟩
        · exact .inr (exists_lexical_of_isDigit hdigit rest)
        · exact .inr ⟨.string, exists_lexical_of_quote (by simpa using hquote) rest⟩
        · exact .inl rfl

theorem Lexical.ne_nil (h : Lexical kind text rest) : text ≠ [] := by
  rintro rfl
  cases kind <;> simp [Lexical, IsTagged, IsMarked, IsName, IsWhole, IsDigits, IsPointed,
    IsQuoted] at h

theorem Lexeme.ne_nil (h : Lexeme kind text rest) : text ≠ [] := by
  rcases h with h | ⟨-, c, rfl, -⟩
  · exact h.ne_nil
  · exact List.cons_ne_nil c []

theorem Lexeme.lexical (h : Lexeme kind text rest) (hkind : kind ≠ .unknown) :
    Lexical kind text rest :=
  h.resolve_right fun hunknown => hkind hunknown.1

/-- What the grammar allows is taken, also where it is a character on its own. -/
theorem Lexeme.munch_eq (h : Lexeme kind (c :: more) rest) :
    munch c (more ++ rest) = (kind, more.length) := by
  rcases h with h | ⟨rfl, d, htext, -, -, hnone⟩
  · exact munch_of_lexical h
  · cases htext
    rcases lexical_munch c rest with hunknown | ⟨kind, more, tail, rfl, h⟩
    · exact hunknown
    · exact absurd h (hnone kind (c :: more) tail rfl)

/-- **At one place in a line the grammar allows one token.** -/
theorem Lexeme.unique (h : Lexeme kind text rest) (h' : Lexeme kind' text' rest')
    (heq : text ++ rest = text' ++ rest') : kind = kind' ∧ text = text' := by
  obtain ⟨c, more, rfl⟩ := List.exists_cons_of_ne_nil h.ne_nil
  obtain ⟨c', more', rfl⟩ := List.exists_cons_of_ne_nil h'.ne_nil
  obtain ⟨rfl, hmore⟩ : c = c' ∧ more ++ rest = more' ++ rest' := List.cons_eq_cons.1 heq
  have hmunch := h.munch_eq
  rw [hmore, h'.munch_eq, Prod.mk.injEq] at hmunch
  exact ⟨hmunch.1.symm, by rw [(List.append_inj hmore hmunch.2.symm).1]⟩

/-- **What is taken at a place where a token starts is a lexeme.** -/
theorem lexeme_munch (hblank : Text.isBlank c = false)
    (hcomment : ¬ (c = '/' ∧ rest.head? = some '/')) :
    ∃ more tail, rest = more ++ tail ∧ (munch c rest).2 = more.length ∧
      Lexeme (munch c rest).1 (c :: more) tail := by
  rcases lexical_munch c rest with hunknown | ⟨kind, more, tail, rfl, h⟩
  · rw [hunknown]
    refine ⟨[], rest, rfl, rfl, .inr ⟨rfl, c, rfl, hblank, hcomment, ?_⟩⟩
    intro kind text tail heq h
    obtain ⟨d, more, rfl⟩ := List.exists_cons_of_ne_nil h.ne_nil
    obtain ⟨rfl, rfl⟩ : d = c ∧ more ++ tail = rest := List.cons_eq_cons.1 heq
    -- it would have been taken
    rw [munch_of_lexical h, Prod.mk.injEq] at hunknown
    rw [hunknown.1] at h
    exact h
  · rw [munch_of_lexical h]
    exact ⟨more, tail, rfl, rfl, .inl h⟩

/-! ### Tokens of a script -/

/-- **A token on its line is a lexeme.** -/
theorem lexeme_of_mem_scanFrom {k col : Nat} {line : Text} (ht : t ∈ scanFrom k col line) :
    ∃ head tail, line = head ++ t.text ++ tail ∧ col + head.length = t.col ∧
      Lexeme t.kind t.text tail := by
  fun_induction scanFrom k col line with
  | case1 col => cases ht
  | case2 col c rest hblank ih =>
    obtain ⟨head, tail, rfl, hcol, hlexeme⟩ := ih ht
    exact ⟨c :: head, tail, rfl, by rw [List.length_cons]; omega, hlexeme⟩
  | case3 col c rest _ hcomment => cases ht
  | case4 col c rest hblank hcomment kind n hmunch ih =>
    obtain ⟨more, tail, rfl, hlength, hlexeme⟩ :=
      lexeme_munch (by simpa using hblank) (by simpa using hcomment)
    rw [hmunch] at hlength hlexeme
    dsimp only at hlength hlexeme
    subst hlength
    rw [List.take_left, List.drop_left] at ht
    rw [List.drop_left] at ih
    rcases List.mem_cons.1 ht with rfl | ht
    · exact ⟨[], tail, rfl, rfl, hlexeme⟩
    · obtain ⟨head, tail, rfl, hcol, htoken⟩ := ih ht
      refine ⟨c :: (more ++ head), tail, by simp, ?_, htoken⟩
      rw [List.length_cons, List.length_append]
      omega

/-- The ends of lines and of the script. -/
theorem mark_of_mem_scan (ht : t ∈ scan text) (hkind : ¬ IsPiece t.kind) :
    (∃ line, text.lines[t.line - 1]? = some line ∧ t = ⟨.newLine, ['\n'], t.line, line.length⟩) ∨
      t = ⟨.eof, [], text.lines.length + 1, 0⟩ := by
  rw [scan, scanLines_eq, List.mem_append, List.mem_singleton, List.mem_flatten] at ht
  rcases ht with ⟨row, hrow, ht⟩ | rfl
  · obtain ⟨k, hk, rfl⟩ := List.mem_mapIdx.1 hrow
    rw [scanLine, List.mem_append, List.mem_singleton] at ht
    rcases ht with ht | rfl
    · exact absurd ((scanFrom_lossless (1 + k) 0 [] _ rfl).kind t ht).2 hkind
    · refine .inl ⟨_, ?_, rfl⟩
      rw [Nat.add_sub_cancel_left]
      exact List.getElem?_eq_getElem hk
  · rw [Nat.add_comm]
    exact .inr rfl

/-- **The tokens of a script follow the grammar.**  A token that is not the end of a line or of the
script is a piece of its line, from its column on, and this piece belongs to the language of the
token's kind, before what follows on the line.  Nothing else could be taken at this place: the
grammar allows no token of another kind there, and none of another length.  The end of a line stands
after the last character of the line, and the end of the script after the last line. -/
theorem scan_follows_grammar (text : Text) (t : Token) (ht : t ∈ scan text) :
    (IsPiece t.kind →
      ∃ line head tail, 1 ≤ t.line ∧ text.lines[t.line - 1]? = some line ∧
        line = head ++ t.text ++ tail ∧ head.length = t.col ∧ Lexeme t.kind t.text tail ∧
        ∀ kind text' rest', Lexeme kind text' rest' → text' ++ rest' = t.text ++ tail →
          kind = t.kind ∧ text' = t.text) ∧
    (¬ IsPiece t.kind →
      (∃ line, text.lines[t.line - 1]? = some line ∧
        t = ⟨.newLine, ['\n'], t.line, line.length⟩) ∨
      t = ⟨.eof, [], text.lines.length + 1, 0⟩) := by
  refine ⟨fun hkind => ?_, mark_of_mem_scan ht⟩
  obtain ⟨hpos, line, hline, hmem⟩ := exists_line_of_mem_scan ht hkind
  obtain ⟨head, tail, hparts, hcol, hlexeme⟩ := lexeme_of_mem_scanFrom hmem
  refine ⟨line, head, tail, hpos, hline, hparts, by omega, hlexeme, ?_⟩
  intro kind text' rest' hother heq
  exact hother.unique hlexeme heq

/-- A string with an escaped quote in it, which a backslash and the end of the line leave open. -/
theorem open_string_follows_grammar :
    ⟨.string, "'\\'\\".toList, 1, 2⟩ ∈ scan "5s'\\'\\\r\n'".toList ∧
    Lexeme .string "'\\'\\".toList [] := by
  have hmem : ⟨.string, "'\\'\\".toList, 1, 2⟩ ∈ scan "5s'\\'\\\r\n'".toList := by
    decide +kernel
  obtain ⟨line, head, tail, -, hline, hparts, hcol, hlexeme, -⟩ :=
    (scan_follows_grammar _ _ hmem).1 (by decide)
  refine ⟨hmem, ?_⟩
  -- the string takes all that is left of its line
  obtain rfl : "5s'\\'\\".toList = line := Option.some.inj hline
  have hlength := congrArg List.length hparts
  rw [List.length_append, List.length_append, hcol] at hlength
  obtain rfl : tail = [] := List.eq_nil_of_length_eq_zero (Nat.left_eq_add.1 hlength)
  exact hlexeme

end Token

end OpcodeLens
