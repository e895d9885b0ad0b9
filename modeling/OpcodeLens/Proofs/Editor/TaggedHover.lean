import OpcodeLens.Proofs.Editor.Highlight
import OpcodeLens.Proofs.Editor.Hover
import OpcodeLens.Proofs.Editor.Labels
import Mathlib.Data.List.DropRight

/-!
# Hovering over labels and variables

A label and a global variable are a tag and a name, but the word that is looked up as a command is
the run of plain characters around the cursor, and only an `@` right before the word tells that it
is no command.

* `Hover.ofSimple?_run` : what is shown for a run; nothing if it starts with an `@`.
* `Hover.CommandShown` : a command is shown by its name.
* `Token.leadIn`, `Token.wordAround` : the run around the name of a tagged token.
* `Hover.command_shown_in_tagged_iff` : **when a command is shown inside of a tagged token**: never
  for a jump that follows no plain character, and always for a label or a variable that has the name
  of a command.
-/

namespace OpcodeLens

namespace Text

/-- The text before a byte offset. -/
def upTo (text : Text) (offset : Nat) : Text := ((text.splitAtByte offset).map Prod.fst).getD []

/-- The text from a byte offset on. -/
def since (text : Text) (offset : Nat) : Text := ((text.splitAtByte offset).map Prod.snd).getD []

theorem upTo_append (before after : Text) : upTo (before ++ after) before.byteLength = before := by
  rw [upTo, splitAtByte_append, Option.map_some, Option.getD_some]

theorem since_append (before after : Text) : since (before ++ after) before.byteLength = after := by
  rw [since, splitAtByte_append, Option.map_some, Option.getD_some]

theorem charBefore?_eq_getLast? (text : Text) (offset : Nat) :
    text.charBefore? offset = (text.upTo offset).getLast? := by
  rw [charBefore?, upTo]
  cases text.splitAtByte offset <;> rfl

end Text

namespace Token

/-- The plain characters right before the name of a tagged token: none after a colon or a dollar
sign, and those that end in the `@` of a jump. -/
def leadIn (text : Text) (t : Token) : Text :=
  if t.kind = .labelJump then
    (text.upTo (t.bytes text).start).rtakeWhile Text.isSimpleChar ++ ['@']
  else []

/-- The name of a tagged token with the plain characters right before and after it. -/
def wordAround (text : Text) (t : Token) : Text :=
  t.leadIn text ++ t.bareName ++ (text.since (t.bytes text).stop).takeWhile Text.isSimpleChar

/-- The bytes of that word. -/
def wordBytes (text : Text) (t : Token) : ByteRange :=
  let start := (t.bytes text).start + 1 - (t.leadIn text).byteLength
  ⟨start, start + (t.wordAround text).byteLength⟩

variable {text before head after : Text} {t : Token} {tag : Char}

/-- A jump that follows no plain character starts a word of its own. -/
theorem leadIn_of_jump (hjump : t.kind = .labelJump)
    (hbefore : ∀ c ∈ text.charBefore? (t.bytes text).start, Text.isSimpleChar c = false) :
    t.leadIn text = ['@'] := by
  rw [Text.charBefore?_eq_getLast?] at hbefore
  have hnil : (text.upTo (t.bytes text).start).rtakeWhile Text.isSimpleChar = [] := by
    refine List.rtakeWhile_eq_nil_iff.2 fun hne => ?_
    rw [hbefore _ (List.getLast?_eq_some_getLast hne)]
    exact Bool.false_ne_true
  rw [leadIn, if_pos hjump, hnil, List.nil_append]

theorem Around.upTo_start (h : Around text t before head after) :
    text.upTo (t.bytes text).start = before ++ head := by
  rw [bytes, h.offset, h.eq, List.append_assoc (before ++ head), Text.upTo_append]

theorem Around.since_stop (h : Around text t before head after) :
    text.since (t.bytes text).stop = after := by
  have hstop : (t.bytes text).stop = Text.byteLength (before ++ head ++ t.text) := by
    rw [bytes, h.offset, Text.byteLength_append _ t.text]
  rw [hstop, h.eq, Text.since_append]

theorem Around.leadIn_eq (h : Around text t before head after)
    (htag : tagKind? tag = some t.kind) :
    (before ++ head ++ [tag]).rtakeWhile Text.isSimpleChar = t.leadIn text := by
  rw [leadIn, h.upTo_start]
  generalize t.kind = kind at htag
  unfold tagKind? at htag
  split at htag <;> cases htag
  · exact List.rtakeWhile_concat_pos _ _ _ (by decide)
  · exact List.rtakeWhile_concat_neg _ _ _ (by decide)
  · exact List.rtakeWhile_concat_neg _ _ _ (by decide)

theorem exists_tagKind?
    (h : t.kind = .labelJump ∨ t.kind = .labelDefine ∨ t.kind = .globalVar) :
    ∃ tag, tagKind? tag = some t.kind ∧ Text.byteLength [tag] = 1 := by
  rcases h with h | h | h
  · exact ⟨'@', by rw [h]; rfl, rfl⟩
  · exact ⟨':', by rw [h]; rfl, rfl⟩
  · exact ⟨'$', by rw [h]; rfl, rfl⟩

/-- **The run around the name of a tagged token**, and the bytes of the token. -/
theorem exists_isRun_wordAround (ht : t ∈ scan text)
    (hkind : t.kind = .labelJump ∨ t.kind = .labelDefine ∨ t.kind = .globalVar) :
    (∀ c ∈ t.bareName, Text.isNameChar c = true) ∧
    (t.bytes text).stop = (t.bytes text).start + 1 + t.bareName.byteLength ∧
    ∃ before after : Text, Text.IsRun Text.isSimpleChar text before (t.wordAround text) after ∧
      (t.bytes text).start + 1 = before.byteLength + (t.leadIn text).byteLength := by
  obtain ⟨tag, htag, hsize⟩ := exists_tagKind? hkind
  obtain ⟨before, head, after, h, htext, hname, -⟩ := exists_tagged_around ht htag
  have hsimple : ∀ c ∈ t.bareName, Text.isSimpleChar c = true :=
    fun c hc => Text.isSimpleChar_of_isNameChar (hname c hc)
  have hrun := Text.isRun_around (before ++ head ++ [tag]) after hsimple
  have heq : before ++ head ++ [tag] ++ t.bareName ++ after = text := by
    rw [h.eq, htext]
    simp only [List.append_assoc, List.cons_append, List.nil_append]
  rw [heq, h.leadIn_eq htag] at hrun
  have hfront : (before ++ head ++ [tag]).rdropWhile Text.isSimpleChar ++ t.leadIn text =
      before ++ head ++ [tag] := by
    rw [← h.leadIn_eq htag, List.rdropWhile_append_rtakeWhile]
  have hbytes : t.text.byteLength = Text.byteLength [tag] + t.bareName.byteLength := by
    rw [htext, ← Text.byteLength_append]
    rfl
  refine ⟨hname, ?_, _, _, by rw [wordAround, h.since_stop]; exact hrun, ?_⟩
  · rw [bytes, hbytes, hsize, Nat.add_assoc]
  · rw [← Text.byteLength_append, hfront, Text.byteLength_append _ [tag], hsize, bytes, h.offset]

end Token

namespace Hover

open Text (IsRun)

variable {cat : Catalogue} {text before run after : Text} {offset : Nat} {hover : Hover}

/-- **What is shown for a run of plain characters**: the command that has it as its name, but
nothing if it starts with an `@`. -/
theorem ofSimple?_run (cat : Catalogue) (h : IsRun Text.isSimpleChar text before run after)
    (hne : run ≠ []) (hlo : before.byteLength ≤ offset)
    (hhi : offset ≤ before.byteLength + run.byteLength) :
    (text.simpleWord? offset).bind (ofSimple? cat text) =
      if run.head? = some '@' then none
      else (cat.opcode? run).map fun c =>
        ⟨describe c .opcode, before.byteLength, before.byteLength + run.byteLength⟩ := by
  have hrun := h.runAt?_eq Text.oneByte_isSimpleChar hne hlo hhi
  split_ifs with hhead
  · -- the `@` is left out of the word, and stands right before it
    obtain ⟨rest, rfl⟩ := List.head?_eq_some_iff.1 hhead
    rw [Text.simpleWord?_of_runAt?_cons hrun]
    split_ifs
    · rfl
    have hfollows : followsAt text (before.byteLength + 1) = true := by
      have hsplit : text = before ++ ['@'] ++ (rest ++ after) := by
        rw [h.eq]
        simp only [List.append_assoc, List.cons_append, List.nil_append]
      have hstart : before.byteLength + 1 = Text.byteLength (before ++ ['@']) :=
        (Text.byteLength_append before ['@']).symm
      rw [hsplit, hstart, followsAt_append, List.getLast?_concat]
      rfl
    rw [Option.bind_some, ofSimple?, hfollows]
    rfl
  · have hfollows : followsAt text before.byteLength = false := by
      rw [h.eq, List.append_assoc, followsAt_append, decide_eq_false_iff_not]
      intro hlast
      exact absurd (h.left '@' hlast) (by decide)
    rw [Text.simpleWord?_of_runAt? hrun hhead, Option.bind_some, ofSimple?, hfollows]
    rfl

/-- A command is shown for a cursor by its name, and not as the member of a class. -/
def CommandShown (cat : Catalogue) (text : Text) (offset : Nat) (hover : Hover) : Prop :=
  atOffset? cat text offset = some hover ∧ (text.dottedWord? offset).bind (ofDotted? cat) = none

instance : Decidable (CommandShown cat text offset hover) :=
  inferInstanceAs (Decidable (_ ∧ _))

theorem commandShown_iff : CommandShown cat text offset hover ↔
    (text.dottedWord? offset).bind (ofDotted? cat) = none ∧
      (text.simpleWord? offset).bind (ofSimple? cat text) = some hover := by
  rw [CommandShown, and_comm, atOffset?_eq_or]
  refine and_congr_right fun hnone => ?_
  rw [hnone, Option.none_or]

/-- The word around a name starts with an `@` only if it starts before the name. -/
theorem head?_append_name {lead name trail : Text} (hname : ∀ c ∈ name, Text.isNameChar c = true)
    (hne : name ≠ []) : (lead ++ name ++ trail).head? = some '@' ↔ lead.head? = some '@' := by
  obtain ⟨first, more, rfl⟩ := List.exists_cons_of_ne_nil hne
  cases lead with
  | cons c lead => exact Iff.rfl
  | nil =>
    refine ⟨fun h => ?_, fun h => nomatch h⟩
    cases h
    exact absurd (hname '@' List.mem_cons_self) (by decide)

/-- What is shown inside of a tagged token for a command. -/
theorem ofSimple?_tagged (cat : Catalogue) {t : Token} (ht : t ∈ Token.scan text)
    (hkind : t.kind = .labelJump ∨ t.kind = .labelDefine ∨ t.kind = .globalVar)
    (hlo : (t.bytes text).start < offset) (hhi : offset < (t.bytes text).stop) :
    (text.simpleWord? offset).bind (ofSimple? cat text) =
      if (t.leadIn text).head? = some '@' then none
      else (cat.opcode? (t.wordAround text)).map fun c =>
        ⟨describe c .opcode, t.wordBytes text⟩ := by
  obtain ⟨hname, hstop, before, after, hrun, hstart⟩ := Token.exists_isRun_wordAround ht hkind
  have hbare : t.bareName ≠ [] := by
    intro hnil
    rw [hnil, Text.byteLength] at hstop
    omega
  have hne : t.wordAround text ≠ [] := by simp [Token.wordAround, hbare]
  have hword : (t.leadIn text).byteLength + t.bareName.byteLength ≤
      (t.wordAround text).byteLength := by
    rw [Token.wordAround, Text.byteLength_append, Text.byteLength_append]
    exact Nat.le_add_right _ _
  have hbytes : t.wordBytes text =
      ⟨before.byteLength, before.byteLength + (t.wordAround text).byteLength⟩ := by
    rw [Token.wordBytes, hstart, Nat.add_sub_cancel]
  have hhead : (t.wordAround text).head? = some '@' ↔ (t.leadIn text).head? = some '@' :=
    head?_append_name hname hbare
  rw [ofSimple?_run cat hrun hne (by omega) (by omega), hbytes]
  simp only [hhead]

/-- **When a command is shown inside of a tagged token.**  It is looked up by the name of the token
with the plain characters around it, unless these start with an `@`.  So nothing is shown for a jump
that follows no plain character; but a label or a variable is shown as the command that has its
name, and a jump too if it is part of a command's name. -/
theorem command_shown_in_tagged_iff (cat : Catalogue) {t : Token} (ht : t ∈ Token.scan text)
    (hkind : t.kind = .labelJump ∨ t.kind = .labelDefine ∨ t.kind = .globalVar)
    (hlo : (t.bytes text).start < offset) (hhi : offset < (t.bytes text).stop) :
    (∀ hover, CommandShown cat text offset hover ↔
      (text.dottedWord? offset).bind (ofDotted? cat) = none ∧ (t.leadIn text).head? ≠ some '@' ∧
        ∃ c, cat.opcode? (t.wordAround text) = some c ∧
          hover = ⟨describe c .opcode, t.wordBytes text⟩) ∧
    (t.kind = .labelJump →
      (∀ c ∈ text.charBefore? (t.bytes text).start, Text.isSimpleChar c = false) →
        ∀ hover, ¬ CommandShown cat text offset hover) := by
  have hshown := ofSimple?_tagged cat ht hkind hlo hhi
  constructor
  · intro hover
    rw [commandShown_iff, hshown]
    by_cases hhead : (t.leadIn text).head? = some '@'
    · simp [hhead]
    · simp [hhead, eq_comm]
  · intro hjump hbefore hover hcommand
    rw [commandShown_iff, hshown, Token.leadIn_of_jump hjump hbefore, List.head?_cons,
      if_pos rfl] at hcommand
    exact nomatch hcommand.2

/-- No command is shown for a jump to a label that has the name of one. -/
theorem jump_to_wait_not_shown :
    ⟨.labelJump, "@wait".toList, 1, 5⟩ ∈ Token.scan "goto @wait".toList ∧
      ∀ hover, ¬ CommandShown Highlight.clock "goto @wait".toList 7 hover := by
  have hjump : ⟨.labelJump, "@wait".toList, 1, 5⟩ ∈ Token.scan "goto @wait".toList := by
    decide +kernel
  have hlo : (Token.bytes "goto @wait".toList ⟨.labelJump, "@wait".toList, 1, 5⟩).start < 7 := by
    decide
  refine ⟨hjump, (command_shown_in_tagged_iff Highlight.clock hjump (.inl rfl) hlo ?_).2 rfl ?_⟩
  · decide
  · rintro c ⟨⟩
    decide

/-- A command is shown for a label and for a variable that have its name. -/
theorem wait_shown_in_label_and_variable :
    (⟨.labelDefine, ":wait".toList, 1, 0⟩ ∈ Token.scan ":wait".toList ∧
      CommandShown Highlight.clock ":wait".toList 2 ⟨"0001: wait \n\n".toList, 1, 5⟩) ∧
    ⟨.globalVar, "$wait".toList, 1, 0⟩ ∈ Token.scan "$wait".toList ∧
      CommandShown Highlight.clock "$wait".toList 2 ⟨"0001: wait \n\n".toList, 1, 5⟩ := by
  decide +kernel

end Hover

end OpcodeLens
