import OpcodeLens.Editor.Labels
import OpcodeLens.Proofs.Text.WordSpan
import OpcodeLens.Proofs.Token.Grammar
import Mathlib.Data.List.Nodup
import Mathlib.Data.List.Perm.Basic

/-!
# Labels from the cursor

The cursor is a position and its word is found by walking over bytes, while the labels of a script
are tokens with character columns.  From a cursor on the name of a label, the word that is found is
the bare name of that token.

* `Token.exists_tagged_around`, `Token.exists_label_around` : a script around one of its tagged
  tokens, and around one of its labels.
* `Labels.Legible` : a label whose name does not run into a plain word before or after it.
* `Labels.nameAt?_eq` : **the word under a cursor on the name of a label is that name.**
* `Labels.namesakes` : the labels with a name; `Labels.namesakes_pairwise` : they stand one after
  the other.
* `Labels.navigation_finds_namesakes` : **from any label, all its namesakes are found.**
-/

namespace OpcodeLens

namespace Token

variable {text : Text} {t : Token}

theorem isLabel_iff : t.isLabel = true ↔ t.kind = .labelDefine ∨ t.kind = .labelJump := by
  simp [isLabel]

theorem isPiece_of_label (h : t.kind = .labelDefine ∨ t.kind = .labelJump) : IsPiece t.kind := by
  rcases h with h | h <;> rw [h] <;> decide

theorem bareName_of_tagKind? {tag : Char} (htag : tagKind? tag = some t.kind) :
    t.bareName = t.text.drop 1 := by
  generalize hkind : t.kind = kind at htag
  unfold tagKind? at htag
  split at htag <;> cases htag <;> rw [bareName, hkind]

theorem isTagged_of_tagKind? {tag : Char} {kind : TokenKind} {rest : Text}
    (htag : tagKind? tag = some kind) (h : Lexeme kind text rest) : IsTagged tag text rest := by
  unfold tagKind? at htag
  split at htag <;> cases htag <;> exact h.lexical (by decide)

/-- **A script around one of its tagged tokens**: the token is a tag and a name, and the name is not
part of a longer one. -/
theorem exists_tagged_around {tag : Char} (ht : t ∈ scan text)
    (htag : tagKind? tag = some t.kind) :
    ∃ before head after, Around text t before head after ∧ t.text = tag :: t.bareName ∧
      (∀ c ∈ t.bareName, Text.isNameChar c = true) ∧
      ∀ c ∈ after.head?, Text.isNameChar c = false := by
  obtain ⟨hpos, line, hline, hmem⟩ := exists_line_of_mem_scan ht (isPiece_of_tagKind? htag)
  obtain ⟨head, tail, rfl, hcol, hlexeme⟩ := lexeme_of_mem_scanFrom hmem
  obtain ⟨before, after, haround, hafter⟩ :=
    exists_around_of_line ⟨hlexeme.ne_nil, hpos⟩ hline (by omega)
  obtain ⟨name, htext, hname, hstop⟩ := isTagged_of_tagKind? htag hlexeme
  have hbare : t.bareName = name := by rw [bareName_of_tagKind? htag, htext, List.drop_one]; rfl
  refine ⟨before, head, tail ++ after, haround, by rw [hbare, htext], by rwa [hbare], ?_⟩
  cases tail with
  | cons d tail => exact hstop
  | nil =>
    intro c hc
    rcases hafter c hc with rfl | rfl <;> decide

/-- **A script around one of its labels**: the label is a tag and a name, and the name is not part
of a longer one. -/
theorem exists_label_around (ht : t ∈ scan text) (hlabel : t.isLabel = true) :
    ∃ before head tag after, Around text t before head after ∧ t.text = tag :: t.bareName ∧
      (tag = ':' ∨ t.kind = .labelJump ∧ tag = '@') ∧
      (∀ c ∈ t.bareName, Text.isNameChar c = true) ∧
      ∀ c ∈ after.head?, Text.isNameChar c = false := by
  obtain ⟨tag, htag, hsign⟩ : ∃ tag, tagKind? tag = some t.kind ∧
      (tag = ':' ∨ t.kind = .labelJump ∧ tag = '@') := by
    rcases isLabel_iff.1 hlabel with hkind | hkind
    · exact ⟨':', by rw [hkind]; rfl, .inl rfl⟩
    · exact ⟨'@', by rw [hkind]; rfl, .inr ⟨hkind, rfl⟩⟩
  obtain ⟨before, head, after, haround, htext, hname, hafter⟩ := exists_tagged_around ht htag
  exact ⟨before, head, tag, after, haround, htext, hsign, hname, hafter⟩

end Token

namespace Labels

variable {text name : Text} {t u : Token} {p q : Position}

/-! ### The name under the cursor -/

/-- A label of a script that has a name, and whose name does not run into a plain word before or
after it. -/
structure Legible (text : Text) (t : Token) : Prop where
  /-- The token is one of the script's. -/
  mem : t ∈ Token.scan text
  /-- It is a label. -/
  label : t.kind = .labelDefine ∨ t.kind = .labelJump
  /-- It has a name. -/
  named : t.bareName ≠ []
  /-- The character after it is no `@`. -/
  right : text.charAfter? (t.bytes text).stop ≠ some '@'
  /-- The character before a jump is neither an `@` nor part of a name. -/
  left : t.kind = .labelJump → ∀ c ∈ text.charBefore? (t.bytes text).start,
    Text.isNameChar c = false ∧ c ≠ '@'

/-- The position lies on the name of a label, from right after the tag to the end. -/
def OnName (text : Text) (t : Token) (p : Position) : Prop :=
  p.line = (t.range text.lines).start.line ∧
    (t.range text.lines).start.character + 1 ≤ p.character ∧
    p.character ≤ (t.range text.lines).stop.character

instance : Decidable (OnName text t p) := inferInstanceAs (Decidable (_ ∧ _ ∧ _))

theorem isSimpleChar_eq_false {c : Char} (hname : Text.isNameChar c = false) (hc : c ≠ '@') :
    Text.isSimpleChar c = false := by
  rw [Text.isSimpleChar, hname, Bool.false_or, decide_eq_false hc]

theorem unitLength_of_isNameChar (h : ∀ c ∈ name, Text.isNameChar c = true) :
    name.unitLength = name.length := by
  induction name with
  | nil => rfl
  | cons c name ih =>
    obtain ⟨hc, hname⟩ := List.forall_mem_cons.1 h
    have hunits : Text.units c = 1 := if_pos ((Text.isNameChar_toNat_lt hc).trans (by decide))
    rw [Text.unitLength, hunits, ih hname, List.length_cons, Nat.add_comm]

/-- A cursor on the name of a label stands between two of its characters, or at one of its ends. -/
theorem exists_offsetAt?_onName {before head after : Text} {tag : Char}
    (h : Token.Around text t before head after) (htext : t.text = tag :: name)
    (htag : Text.units tag = 1) (hname : ∀ c ∈ name, Text.isNameChar c = true)
    (hp : OnName text t p) :
    ∃ i ≤ name.length, text.offsetAt? p = some (Text.byteLength (before ++ head ++ [tag]) + i) := by
  obtain ⟨hline, hstart, hstop⟩ := hp
  rw [h.range_eq] at hline hstart hstop
  dsimp only at hline hstart hstop
  rw [htext, Text.unitLength, htag, unitLength_of_isNameChar hname] at hstop
  -- `i` characters of the name are before the cursor
  obtain ⟨i, hi⟩ := Nat.exists_eq_add_of_le hstart
  have hle : i ≤ name.length := by omega
  have htake : ∀ c ∈ name.take i, Text.isNameChar c = true :=
    fun c hc => hname c (List.mem_of_mem_take hc)
  have hlength : (name.take i).length = i := by rw [List.length_take, Nat.min_eq_left hle]
  have hsingle : '\n' ∉ head ++ tag :: name.take i := by
    have hsingle := h.single
    rw [htext, List.mem_cons, not_or] at hsingle
    simp only [List.mem_append, List.mem_cons, not_or]
    exact ⟨hsingle.1, hsingle.2.1, fun hc => hsingle.2.2 (List.mem_of_mem_take hc)⟩
  have hpast : Position.zero.past (before ++ (head ++ tag :: name.take i)) = p := by
    rw [Position.past_append, h.past, Position.past_of_not_mem hsingle, Nat.zero_add,
      Text.unitLength_append, Text.unitLength, htag, unitLength_of_isNameChar htake, hlength,
      ← hline, ← Nat.add_assoc, ← hi]
  have hparts : text = before ++ (head ++ tag :: name.take i) ++ (name.drop i ++ after) := by
    rw [h.eq, htext]
    simp only [List.append_assoc, List.cons_append]
    rw [← List.append_assoc (name.take i), List.take_append_drop]
  refine ⟨i, hle, ?_⟩
  have hoffset := Text.offsetFrom?_past .zero 0 (before ++ (head ++ tag :: name.take i))
    (name.drop i ++ after)
  rw [hpast, ← hparts] at hoffset
  rw [Text.offsetAt?, hoffset, Nat.zero_add]
  have hbytes := Text.oneByte_isNameChar.byteLength_eq htake
  simp only [Text.byteLength_append, Text.byteLength, hbytes, hlength, Nat.add_zero, Nat.add_assoc]

namespace Legible

variable {before head after : Text} (ht : Legible text t)
  (h : Token.Around text t before head after)
include ht h

theorem right_isSimpleChar (hafter : ∀ c ∈ after.head?, Text.isNameChar c = false) :
    ∀ c ∈ after.head?, Text.isSimpleChar c = false := by
  have hright := ht.right
  rw [Token.bytes, h.offset, ← Text.byteLength_append, h.eq, Text.charAfter?_append] at hright
  intro c hc
  refine isSimpleChar_eq_false (hafter c hc) ?_
  rintro rfl
  exact hright hc

theorem left_isSimpleChar (hjump : t.kind = .labelJump) :
    ∀ c ∈ (before ++ head).getLast?, Text.isSimpleChar c = false := by
  have hleft := ht.left hjump
  rw [Token.bytes, h.offset, h.eq, List.append_assoc (before ++ head),
    Text.charBefore?_append] at hleft
  intro c hc
  exact isSimpleChar_eq_false (hleft c hc).1 (hleft c hc).2

end Legible

/-- **The word under a cursor on the name of a label is that name.** -/
theorem nameAt?_eq (ht : Legible text t) (hp : OnName text t p) :
    nameAt? text p = some t.bareName := by
  obtain ⟨before, head, tag, after, h, htext, htag, hname, hafter⟩ :=
    Token.exists_label_around ht.mem (Token.isLabel_iff.2 ht.label)
  have hunits : Text.units tag = 1 := by rcases htag with rfl | ⟨-, rfl⟩ <;> decide
  obtain ⟨i, hi, hoffset⟩ := exists_offsetAt?_onName h htext hunits hname hp
  have hright := ht.right_isSimpleChar h hafter
  have hsimple : ∀ c ∈ t.bareName, Text.isSimpleChar c = true :=
    fun c hc => Text.isSimpleChar_of_isNameChar (hname c hc)
  have hbytes := Text.oneByte_isNameChar.byteLength_eq hname
  have hword : ∃ start, text.simpleWord? (Text.byteLength (before ++ head ++ [tag]) + i) =
      some ⟨start, t.bareName⟩ := by
    rcases htag with rfl | ⟨hjump, rfl⟩
    · -- a colon is no part of a plain word: the name is a run of its own
      have hrun : Text.IsRun Text.isSimpleChar text (before ++ head ++ [':']) t.bareName after := by
        refine ⟨?_, hsimple, ?_, hright⟩
        · rw [h.eq, htext]
          simp only [List.append_assoc, List.cons_append, List.nil_append]
        · rw [List.getLast?_concat]
          rintro c ⟨⟩
          decide
      have hhead : t.bareName.head? ≠ some '@' := by
        intro heq
        exact absurd (hname '@' (List.mem_of_head? heq)) (by decide)
      exact ⟨_, hrun.simpleWord?_eq ht.named hhead (Nat.le_add_right _ _) (by omega)⟩
    · -- an `@` belongs to the run, and is left out of the word
      have hrun : Text.IsRun Text.isSimpleChar text (before ++ head) ('@' :: t.bareName) after :=
        ⟨by rw [h.eq, htext], List.forall_mem_cons.2 ⟨by decide, hsimple⟩,
          ht.left_isSimpleChar h hjump, hright⟩
      have hstart : Text.byteLength (before ++ head ++ ['@']) =
          Text.byteLength (before ++ head) + 1 := Text.byteLength_append _ _
      have hlength : Text.byteLength ('@' :: t.bareName) = 1 + t.bareName.byteLength := rfl
      exact ⟨_, hrun.simpleWord?_eq_tail ht.named (by omega) (by omega)⟩
  obtain ⟨start, hword⟩ := hword
  rw [nameAt?, hoffset, Option.bind_some, hword, Option.map_some]

/-! ### Labels of one name -/

/-- The labels of a script that have the given name, in whatever case, in the order of the
script. -/
def namesakes (text name : Text) : List Token :=
  (Token.scan text).filter fun u =>
    (u.kind = .labelDefine ∨ u.kind = .labelJump) ∧
      u.bareName.map Char.toLower = name.map Char.toLower

theorem mem_namesakes_iff : u ∈ namesakes text name ↔ u ∈ Token.scan text ∧
    (u.kind = .labelDefine ∨ u.kind = .labelJump) ∧
      u.bareName.map Char.toLower = name.map Char.toLower := by
  rw [namesakes, List.mem_filter, decide_eq_true_eq]

theorem rangesOf_eq (text name : Text) (admits : Token → Bool) :
    rangesOf text name admits =
      ((namesakes text name).filter admits).map (Token.range text.lines) := by
  rw [rangesOf, namesakes, List.filter_filter]
  congr 2
  funext u
  rw [Bool.and_comm, isNamed, Token.isLabel, Text.sameIgnoringAsciiCase, beq_eq_decide,
    Bool.decide_and, Bool.decide_or]

/-- **Labels of one name stand one after the other.** -/
theorem namesakes_pairwise (text name : Text) :
    ((namesakes text name).map (Token.range text.lines)).Pairwise fun r s =>
      r.start < r.stop ∧ r.stop ≤ s.start := by
  have haround : ∀ u ∈ namesakes text name, Token.IsPiece u.kind ∧
      ∃ before head after, Token.Around text u before head after := by
    intro u hu
    obtain ⟨hmem, hkind, -⟩ := mem_namesakes_iff.1 hu
    have hpiece := Token.isPiece_of_label hkind
    exact ⟨hpiece, Token.exists_around hmem hpiece⟩
  rw [List.pairwise_map]
  refine ((Token.scan_pairwise_precedes text).filter _).imp_of_mem fun {u v} hu hv hprecedes => ?_
  obtain ⟨hpieceU, beforeU, headU, afterU, hu⟩ := haround u hu
  obtain ⟨hpieceV, beforeV, headV, afterV, hv⟩ := haround v hv
  refine ⟨?_, hu.range_stop_le hv (hprecedes hpieceU hpieceV)⟩
  have hpos := Text.unitLength_pos hu.proper.1
  rw [hu.range_eq, Position.lt_iff]
  exact .inr ⟨rfl, Nat.lt_add_of_pos_right hpos⟩

/-- The definitions and the jumps of one name are all its labels. -/
theorem filter_define_append_jump_perm (text name : Text) :
    ((namesakes text name).filter (·.kind = .labelDefine) ++
      (namesakes text name).filter (·.kind = .labelJump)).Perm (namesakes text name) := by
  have hjump : (namesakes text name).filter (·.kind = .labelJump) =
      (namesakes text name).filter (fun u => !decide (u.kind = .labelDefine)) := by
    refine List.filter_congr fun u hu => ?_
    obtain ⟨-, hkind, -⟩ := mem_namesakes_iff.1 hu
    rcases hkind with hkind | hkind <;> rw [hkind] <;> rfl
  rw [hjump]
  exact List.filter_append_perm _ _

theorem definitions_eq (ht : Legible text t) (hp : OnName text t p) :
    definitions text p = ((namesakes text t.bareName).filter (·.kind = .labelDefine)).map
      (Token.range text.lines) := by
  rw [definitions, nameAt?_eq ht hp]
  exact rangesOf_eq _ _ _

theorem references_eq (ht : Legible text t) (hp : OnName text t p) (withDefinitions : Bool) :
    references text p withDefinitions =
      ((namesakes text t.bareName).filter fun u => withDefinitions || u.kind = .labelJump).map
        (Token.range text.lines) := by
  rw [references, nameAt?_eq ht hp]
  exact rangesOf_eq _ _ _

/-- **From any label, all its namesakes are found.**  From a cursor on the name of a label, the
references are the ranges of all labels with this name, in the order of the script, the label itself
among them.  Those that define the label and those that jump to it are the definitions and the
references without definitions, and nothing is left out or named twice.  From any other label with
this name the answers are the same. -/
theorem navigation_finds_namesakes (text : Text) (t : Token) (ht : Legible text t) (p : Position)
    (hp : OnName text t p) :
    references text p true = (namesakes text t.bareName).map (Token.range text.lines) ∧
    (references text p true).Pairwise (fun r s => r.start < r.stop ∧ r.stop ≤ s.start) ∧
    t.range text.lines ∈ references text p true ∧
    definitions text p =
      ((namesakes text t.bareName).filter (·.kind = .labelDefine)).map (Token.range text.lines) ∧
    references text p false =
      ((namesakes text t.bareName).filter (·.kind = .labelJump)).map (Token.range text.lines) ∧
    (definitions text p ++ references text p false).Perm (references text p true) ∧
    (definitions text p).Disjoint (references text p false) ∧
    ∀ u q, Legible text u → OnName text u q →
      u.bareName.map Char.toLower = t.bareName.map Char.toLower →
        definitions text q = definitions text p ∧
        ∀ withDefinitions,
          references text q withDefinitions = references text p withDefinitions := by
  have hdefinitions := definitions_eq ht hp
  have hall := references_eq ht hp true
  have hjumps := references_eq ht hp false
  simp only [Bool.true_or, List.filter_true] at hall
  simp only [Bool.false_or] at hjumps
  have hpairwise := namesakes_pairwise text t.bareName
  rw [← hall] at hpairwise
  have hperm := (filter_define_append_jump_perm text t.bareName).map (Token.range text.lines)
  rw [List.map_append, ← hdefinitions, ← hjumps, ← hall] at hperm
  refine ⟨hall, hpairwise, ?_, hdefinitions, hjumps, hperm, ?_, ?_⟩
  · rw [hall]
    exact List.mem_map_of_mem (mem_namesakes_iff.2 ⟨ht.mem, ht.label, rfl⟩)
  · have hnodup : (references text p true).Nodup := by
      refine hpairwise.imp fun {r s} h heq => ?_
      rw [heq] at h
      exact absurd (h.1.trans_le h.2) (lt_irrefl _)
    exact List.disjoint_of_nodup_append (hperm.nodup_iff.2 hnodup)
  · intro u q hu hq hname
    have hsame : namesakes text u.bareName = namesakes text t.bareName := by
      rw [namesakes, namesakes, hname]
    refine ⟨?_, fun withDefinitions => ?_⟩
    · rw [definitions_eq hu hq, definitions_eq ht hp, hsame]
    · rw [references_eq hu hq, references_eq ht hp, hsame]

/-- A script with three labels of one name. -/
def threeLoops : Text := "😀@Loop\r\n:LOOP x@loop".toList

/-- All three are found from the end of the first one, after a character of two units, and from the
start of the second one, which has another case. -/
theorem threeLoops_found :
    Legible threeLoops ⟨.labelJump, "@Loop".toList, 1, 1⟩ ∧
    OnName threeLoops ⟨.labelJump, "@Loop".toList, 1, 1⟩ ⟨0, 7⟩ ∧
    references threeLoops ⟨0, 7⟩ true =
      [⟨⟨0, 2⟩, ⟨0, 7⟩⟩, ⟨⟨1, 0⟩, ⟨1, 5⟩⟩, ⟨⟨1, 7⟩, ⟨1, 12⟩⟩] ∧
    references threeLoops ⟨1, 1⟩ true = references threeLoops ⟨0, 7⟩ true := by
  have hjump : Legible threeLoops ⟨.labelJump, "@Loop".toList, 1, 1⟩ := by
    refine ⟨by decide +kernel, by decide, by decide, by decide, fun _ => ?_⟩
    rintro c ⟨⟩
    decide
  have hdefine : Legible threeLoops ⟨.labelDefine, ":LOOP".toList, 2, 0⟩ := by
    refine ⟨by decide +kernel, by decide, by decide, by decide, ?_⟩
    rintro ⟨⟩
  have hend : OnName threeLoops ⟨.labelJump, "@Loop".toList, 1, 1⟩ ⟨0, 7⟩ := by decide
  have hstart : OnName threeLoops ⟨.labelDefine, ":LOOP".toList, 2, 0⟩ ⟨1, 1⟩ := by decide
  have h := navigation_finds_namesakes _ _ hjump _ hend
  refine ⟨hjump, hend, ?_, (h.2.2.2.2.2.2.2 _ _ hdefine hstart (by decide)).2 true⟩
  rw [h.1]
  decide +kernel

end Labels

end OpcodeLens
