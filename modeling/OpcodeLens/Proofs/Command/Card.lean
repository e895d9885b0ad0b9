import OpcodeLens.Command.Card
import OpcodeLens.Proofs.Command.Markup

/-!
# Kept signatures

A card writes down a signature when it is first asked for and keeps it.  Three things ask for a
signature: the signature itself, its highlighted form, and the record of the command, which asks for
the styles that the command has at that moment.  In between the command may change and the card may
be copied.

* `Card.kept_step` : what a step keeps.
* `Card.kept_after` : **what is kept after a run** is the signature at the first use of the style.
* `Card.firstUse?_append` : the first use in a run, from the first uses in its parts.
* `Card.signature_of_first_use` : **a signature is that of the command at the first use of its
  style**, and its highlighted form tells whether that is still the signature of the command.
-/

namespace OpcodeLens

namespace Card

/-! ### Steps -/

/-- A value for one of the parts of a command. -/
inductive Assignment where
  /-- An identifier. -/
  | id (value : Text)
  /-- A name. -/
  | name (value : Text)
  /-- A class, or none. -/
  | className (value : Option Text)
  /-- A name in the class, or none. -/
  | memberName (value : Option Text)
  /-- Inputs, or none. -/
  | inputs (value : Option (List Param))
  /-- Outputs, or none. -/
  | outputs (value : Option (List Param))
  /-- A description. -/
  | shortDesc (value : Text)
  /-- Whether the command is there in name only. -/
  | isUnsupported (value : Bool)
  deriving DecidableEq, Repr

/-- The command with the value in its place. -/
def Assignment.apply (c : Command) : Assignment → Command
  | .id value => { c with id := value }
  | .name value => { c with name := value }
  | .className value => { c with className := value }
  | .memberName value => { c with memberName := value }
  | .inputs value => { c with inputs := value }
  | .outputs value => { c with outputs := value }
  | .shortDesc value => { c with shortDesc := value }
  | .isUnsupported value => { c with isUnsupported := value }

/-- Something that is done with a card. -/
inductive Step where
  /-- A part of the command gets a value. -/
  | assign (assignment : Assignment)
  /-- The card is copied, with what it keeps. -/
  | copy
  /-- The card is asked for a signature. -/
  | signature (style : Style)
  /-- The card is asked for a highlighted signature. -/
  | highlighted (style : Style)
  /-- The signature of the command is written, past the card. -/
  | plain (style : Style)
  /-- The record of the command is written. -/
  | serialize
  /-- The styles of the command are listed. -/
  | styles
  deriving DecidableEq, Repr

/-- The card after a step; after a copy, the steps go on with either of the two. -/
def step (card : Card) : Step → Card
  | .assign assignment => { card with command := assignment.apply card.command }
  | .copy => ⟨card.command, card.opcode, card.classMember⟩
  | .signature style => (card.signature style).2
  | .highlighted style => (card.highlighted style).2
  | .plain _ => card
  | .serialize => card.serialize.2
  | .styles => card

/-- The card after a run of steps. -/
def after (card : Card) (steps : List Step) : Card := steps.foldl step card

/-! ### What the steps are to the command -/

/-- The command after a step. -/
def Step.change (c : Command) : Step → Command
  | .assign assignment => assignment.apply c
  | _ => c

/-- Does the step use the style? -/
def Step.uses (c : Command) (style : Style) : Step → Bool
  | .signature asked => asked = style
  | .highlighted asked => asked = style
  | .serialize => c.styles.contains style
  | _ => false

/-- Does the step leave the command as it is? -/
def Step.isReading : Step → Bool
  | .assign _ => false
  | _ => true

/-- The command after a run of steps. -/
def changed (c : Command) (steps : List Step) : Command := steps.foldl Step.change c

/-- The command as it was at the first step that used a style. -/
def firstUse? (style : Style) : Command → List Step → Option Command
  | _, [] => none
  | c, step :: rest =>
    if step.uses c style then some c else firstUse? style (step.change c) rest

variable {style : Style} {c : Command} {steps : List Step}

/-! ### One step -/

theorem kept_keep (card : Card) (asked style : Style) (text : Text) :
    (card.keep asked text).kept style = if asked = style then some text else card.kept style := by
  cases asked <;> cases style <;> rfl

theorem command_keep (card : Card) (asked : Style) (text : Text) :
    (card.keep asked text).command = card.command := by
  cases asked <;> rfl

theorem signature_fst (card : Card) (style : Style) :
    (card.signature style).1 = (card.kept style).getD (Signature.plain card.command style) := by
  unfold signature
  cases card.kept style <;> rfl

theorem command_signature (card : Card) (asked : Style) :
    (card.signature asked).2.command = card.command := by
  unfold signature
  cases card.kept asked with
  | none => exact command_keep card asked _
  | some text => rfl

/-- A signature is kept when it is asked for, unless one is kept already. -/
theorem kept_signature (card : Card) (asked style : Style) :
    (card.signature asked).2.kept style =
      (card.kept style).or
        (if asked = style then some (Signature.plain card.command style) else none) := by
  unfold signature
  cases hkept : card.kept asked with
  | none =>
    rw [kept_keep]
    by_cases h : asked = style
    · subst h
      simp [hkept]
    · simp [h]
  | some text =>
    by_cases h : asked = style
    · subst h
      simp [hkept]
    · simp [h]

theorem highlighted_snd (card : Card) (style : Style) :
    (card.highlighted style).2 = (card.signature style).2 := rfl

theorem command_highlightedAll (card : Card) (asked : List Style) :
    (card.highlightedAll asked).2.command = card.command := by
  induction asked generalizing card with
  | nil => rfl
  | cons first rest ih =>
    change ((card.signature first).2.highlightedAll rest).2.command = card.command
    rw [ih, command_signature]

theorem kept_highlightedAll (card : Card) (asked : List Style) (style : Style) :
    (card.highlightedAll asked).2.kept style =
      (card.kept style).or
        (if asked.contains style then some (Signature.plain card.command style) else none) := by
  induction asked generalizing card with
  | nil => simp [highlightedAll]
  | cons first rest ih =>
    change ((card.signature first).2.highlightedAll rest).2.kept style = _
    rw [ih, kept_signature, command_signature, Option.or_assoc]
    congr 1
    by_cases h : first = style
    · simp [h]
    · simp [h, Ne.symm h]

theorem command_step (card : Card) (step : Step) :
    (card.step step).command = step.change card.command := by
  cases step with
  | signature asked => exact command_signature card asked
  | highlighted asked => exact command_signature card asked
  | serialize => exact command_highlightedAll card card.command.styles
  | _ => rfl

/-- **What a step keeps**: the signature of the command as it is, if the step uses the style and
nothing is kept for it. -/
theorem kept_step (card : Card) (step : Step) (style : Style) :
    (card.step step).kept style =
      (card.kept style).or
        (if step.uses card.command style then some (Signature.plain card.command style)
          else none) := by
  cases step with
  | signature asked => simp [Card.step, Step.uses, kept_signature]
  | highlighted asked => simp [Card.step, Step.uses, highlighted_snd, kept_signature]
  | serialize => exact kept_highlightedAll card card.command.styles style
  | assign assignment => cases style <;> simp [Card.step, Step.uses, kept]
  | copy => cases style <;> simp [Card.step, Step.uses, kept]
  | plain asked => simp [Card.step, Step.uses]
  | styles => simp [Card.step, Step.uses]

/-! ### Runs -/

theorem command_after (card : Card) (steps : List Step) :
    (card.after steps).command = changed card.command steps := by
  induction steps generalizing card with
  | nil => rfl
  | cons step steps ih =>
    rw [after, List.foldl_cons, ← after, ih, command_step]
    rfl

theorem command_after_ofCommand (c : Command) (steps : List Step) :
    ((ofCommand c).after steps).command = changed c steps := command_after (ofCommand c) steps

/-- **What is kept after a run**: what was kept before, or the signature at the first use. -/
theorem kept_after (card : Card) (steps : List Step) (style : Style) :
    (card.after steps).kept style =
      (card.kept style).or
        ((firstUse? style card.command steps).map (Signature.plain · style)) := by
  induction steps generalizing card with
  | nil => simp [after, firstUse?]
  | cons step steps ih =>
    rw [after, List.foldl_cons, ← after, ih, kept_step, command_step, Option.or_assoc, firstUse?]
    congr 1
    by_cases h : step.uses card.command style
    · simp [h]
    · simp [h]

theorem changed_append (c : Command) (earlier later : List Step) :
    changed c (earlier ++ later) = changed (changed c earlier) later := List.foldl_append

/-- The first use in a run stands in its first part, or else in the second one. -/
theorem firstUse?_append (style : Style) (c : Command) (earlier later : List Step) :
    firstUse? style c (earlier ++ later) =
      (firstUse? style c earlier).or (firstUse? style (changed c earlier) later) := by
  induction earlier generalizing c with
  | nil => rfl
  | cons step earlier ih =>
    rw [List.cons_append, firstUse?, firstUse?]
    by_cases h : step.uses c style
    · simp [h]
    · simp only [h, Bool.false_eq_true, if_false]
      exact ih (step.change c)

theorem change_of_isReading {step : Step} (h : step.isReading = true) (c : Command) :
    step.change c = c := by
  cases step with
  | assign assignment => cases h
  | _ => rfl

theorem changed_of_isReading (h : ∀ step ∈ steps, step.isReading = true)
    (c : Command) : changed c steps = c := by
  induction steps with
  | nil => rfl
  | cons step steps ih =>
    obtain ⟨hstep, hsteps⟩ := List.forall_mem_cons.1 h
    rw [changed, List.foldl_cons, change_of_isReading hstep]
    exact ih hsteps

theorem firstUse?_of_isReading (h : ∀ step ∈ steps, step.isReading = true)
    {found : Command} (hfound : firstUse? style c steps = some found) : found = c := by
  induction steps with
  | nil => cases hfound
  | cons step steps ih =>
    obtain ⟨hstep, hsteps⟩ := List.forall_mem_cons.1 h
    rw [firstUse?, change_of_isReading hstep] at hfound
    split_ifs at hfound with huses
    · exact (Option.some.inj hfound).symm
    · exact ih hsteps hfound

/-- The signature after a run is that of the command at the first use of its style. -/
theorem signature_after (c : Command) (steps : List Step) (style : Style) :
    (((ofCommand c).after steps).signature style).1 =
      Signature.plain ((firstUse? style c steps).getD (changed c steps)) style := by
  have hnone : (ofCommand c).kept style = none := by cases style <;> rfl
  have hkept : ((ofCommand c).after steps).kept style =
      (firstUse? style c steps).map (Signature.plain · style) := by
    rw [kept_after, hnone, Option.none_or]
    rfl
  rw [signature_fst, hkept, command_after_ofCommand]
  cases firstUse? style c steps <;> rfl

/-- The style has not been used in the run. -/
def Unused (style : Style) (c : Command) (steps : List Step) : Prop :=
  ∀ before asked between, steps = before ++ asked :: between →
    asked.uses ((ofCommand c).after before).command style = false

theorem unused_nil (style : Style) (c : Command) : Unused style c [] := by
  intro before asked between h
  simp at h

theorem command_after_cons (c : Command) (step : Step) (steps : List Step) :
    ((ofCommand c).after (step :: steps)).command =
      ((ofCommand (step.change c)).after steps).command := by
  rw [command_after_ofCommand, command_after_ofCommand]
  rfl

theorem unused_cons {step : Step} : Unused style c (step :: steps) ↔
    step.uses c style = false ∧ Unused style (step.change c) steps := by
  constructor
  · intro h
    refine ⟨h [] step steps rfl, fun before asked between heq => ?_⟩
    rw [← command_after_cons]
    exact h (step :: before) asked between (by rw [heq]; rfl)
  · rintro ⟨hstep, hsteps⟩ before asked between heq
    cases before with
    | nil =>
      obtain ⟨rfl, -⟩ := List.cons_eq_cons.1 heq
      exact hstep
    | cons first before =>
      obtain ⟨rfl, hparts⟩ := List.cons_eq_cons.1 heq
      rw [command_after_cons]
      exact hsteps before asked between hparts

theorem firstUse?_eq_none_iff : firstUse? style c steps = none ↔ Unused style c steps := by
  induction steps generalizing c with
  | nil => simp [firstUse?, unused_nil]
  | cons step steps ih =>
    rw [firstUse?, unused_cons, ← ih]
    by_cases h : step.uses c style
    · simp [h]
    · simp [h]

/-- Where the first use is. -/
theorem exists_of_firstUse? {found : Command} (h : firstUse? style c steps = some found) :
    ∃ earlier step later, steps = earlier ++ step :: later ∧ Unused style c earlier ∧
      step.uses ((ofCommand c).after earlier).command style = true ∧
      found = ((ofCommand c).after earlier).command := by
  induction steps generalizing c with
  | nil => cases h
  | cons step steps ih =>
    rw [firstUse?] at h
    split_ifs at h with huses
    · exact ⟨[], step, steps, rfl, unused_nil style c, huses, (Option.some.inj h).symm⟩
    · obtain ⟨earlier, first, later, rfl, hunused, hfirst, rfl⟩ := ih h
      refine ⟨step :: earlier, first, later, rfl, ?_, ?_, ?_⟩
      · exact unused_cons.2 ⟨Bool.eq_false_iff.2 huses, hunused⟩
      · rwa [command_after_cons]
      · rw [command_after_cons]

/-- A step that neither changes the command nor uses the style makes no difference. -/
theorem signature_leave_out {earlier later : List Step} {step : Step}
    (hreading : step.isReading = true)
    (huses : step.uses ((ofCommand c).after earlier).command style = false) :
    (((ofCommand c).after (earlier ++ later)).signature style).1 =
      (((ofCommand c).after (earlier ++ step :: later)).signature style).1 := by
  rw [command_after_ofCommand] at huses
  have hchanged : changed c (earlier ++ step :: later) = changed c (earlier ++ later) := by
    rw [changed_append, changed_append, changed, List.foldl_cons, change_of_isReading hreading]
    rfl
  have hfirst : firstUse? style c (earlier ++ step :: later) =
      firstUse? style c (earlier ++ later) := by
    rw [firstUse?_append, firstUse?_append, firstUse?, change_of_isReading hreading, huses]
    simp
  rw [signature_after, signature_after, hchanged, hfirst]

/-- The signature is the command's as long as nothing is assigned after the first use. -/
theorem signature_of_isReading {earlier later : List Step} (hunused : Unused style c earlier)
    (hreading : ∀ step ∈ later, step.isReading = true) :
    (((ofCommand c).after (earlier ++ later)).signature style).1 =
      Signature.plain ((ofCommand c).after (earlier ++ later)).command style := by
  have hchanged : changed c (earlier ++ later) = changed c earlier := by
    rw [changed_append, changed_of_isReading hreading]
  have hfirst : (firstUse? style c (earlier ++ later)).getD (changed c earlier) =
      changed c earlier := by
    rw [firstUse?_append, firstUse?_eq_none_iff.2 hunused, Option.none_or]
    cases hlater : firstUse? style (changed c earlier) later with
    | none => rfl
    | some found => exact firstUse?_of_isReading hreading hlater
  rw [signature_after, command_after_ofCommand, hchanged, hfirst]

/-- The signature that is asked for is the command's at the first use, which is at the latest the
question itself. -/
theorem exists_first_use (c : Command) (steps : List Step) (style : Style) :
    ∃ earlier step later, steps ++ [.signature style] = earlier ++ step :: later ∧
      Unused style c earlier ∧ step.uses ((ofCommand c).after earlier).command style = true ∧
      (((ofCommand c).after steps).signature style).1 =
        Signature.plain ((ofCommand c).after earlier).command style := by
  have hlast : firstUse? style c (steps ++ [.signature style]) =
      some ((firstUse? style c steps).getD (changed c steps)) := by
    rw [firstUse?_append]
    cases firstUse? style c steps <;> simp [firstUse?, Step.uses]
  obtain ⟨earlier, step, later, hsteps, hunused, huses, hfound⟩ := exists_of_firstUse? hlast
  refine ⟨earlier, step, later, hsteps, hunused, huses, ?_⟩
  rw [signature_after, hfound]

/-! ### Highlighted signatures -/

theorem highlighted_fst (card : Card) (style : Style) :
    (card.highlighted style).1 = Markup.highlight (card.signature style).1 card.command style := by
  change Markup.highlight (card.signature style).1 (card.signature style).2.command style = _
  rw [command_signature]

/-- The highlighted form of a signature shows the signature, with the marks of the command if it is
the command's and without marks if it is not. -/
structure Coherent (card : Card) (style : Style) : Prop where
  /-- Without its markup it is the signature. -/
  strip : Markup.strip (card.highlighted style).1 = (card.signature style).1
  /-- A signature that is still the command's has the marks of its spans. -/
  current : (card.signature style).1 = Signature.plain card.command style →
    (card.highlighted style).1 =
      Markup.render (Signature.spans card.command style) card.command.isUnsupported
  /-- Another one is escaped, and struck out at most. -/
  stale : (card.signature style).1 ≠ Signature.plain card.command style →
    (card.highlighted style).1 =
        (if card.command.isUnsupported then
          "<s>".toList ++ Markup.escape (card.signature style).1 ++ "</s>".toList
        else Markup.escape (card.signature style).1) ∧
      '<' ∉ Markup.escape (card.signature style).1

theorem coherent (card : Card) (style : Style) : Coherent card style := by
  refine ⟨?_, fun h => ?_, fun h => ⟨?_, Markup.less_not_mem_escape _⟩⟩
  · obtain ⟨spans, hspans, htext⟩ :=
      Markup.exists_highlight_eq_render (card.signature style).1 card.command style
    rw [highlighted_fst, hspans, Markup.strip_render, htext]
  · rw [highlighted_fst, Markup.highlight, if_pos h.symm]
  · have hplain : [Signature.plainSpan (card.signature style).1].flatMap Markup.renderSpan =
        Markup.escape (card.signature style).1 := by
      simp [Signature.plainSpan, Markup.renderSpan, Markup.className?]
    rw [highlighted_fst, Markup.highlight, if_neg (Ne.symm h), Markup.render, hplain]

/-- **A signature is that of the command at the first use of its style.**  It does not matter what
was assigned or copied since, nor how the other style was used: a step that neither changes the
command nor uses the style may be left out.  As long as nothing is assigned after the first use, the
signature is the command's. -/
theorem signature_of_first_use (c : Command) (steps : List Step) (style : Style) :
    (∃ earlier step later, steps ++ [.signature style] = earlier ++ step :: later ∧
      Unused style c earlier ∧ step.uses ((ofCommand c).after earlier).command style = true ∧
      (((ofCommand c).after steps).signature style).1 =
        Signature.plain ((ofCommand c).after earlier).command style) ∧
    (∀ earlier step later, steps = earlier ++ step :: later → step.isReading = true →
      step.uses ((ofCommand c).after earlier).command style = false →
      (((ofCommand c).after (earlier ++ later)).signature style).1 =
        (((ofCommand c).after steps).signature style).1) ∧
    Coherent ((ofCommand c).after steps) style ∧
    ∀ earlier later, steps = earlier ++ later → Unused style c earlier →
      (∀ step ∈ later, step.isReading = true) →
      (((ofCommand c).after steps).signature style).1 =
        Signature.plain ((ofCommand c).after steps).command style := by
  refine ⟨exists_first_use c steps style, ?_, coherent _ _, ?_⟩
  · rintro earlier step later rfl hreading huses
    exact signature_leave_out hreading huses
  · rintro earlier later rfl hunused hreading
    exact signature_of_isReading hunused hreading

/-- A signature that a record has asked for outlives a new identifier, and the question for the
other style in between makes no difference; an identifier that comes before the record is in it. -/
theorem signature_outlives_assignment :
    (((ofCommand (Command.new "0001".toList "WAIT".toList)).after
        ([.serialize] ++ [.assign (.id "0002".toList), .copy])).signature .opcode).1 =
      "0001: wait ".toList ∧
    Unused .opcode (Command.new "0001".toList "WAIT".toList) [.assign (.id "0002".toList)] ∧
    (((ofCommand (Command.new "0001".toList "WAIT".toList)).after
        ([.assign (.id "0002".toList)] ++ [.serialize, .copy])).signature .opcode).1 =
      "0002: wait ".toList := by
  have hvalue : (((ofCommand (Command.new "0001".toList "WAIT".toList)).after
      [.serialize, .signature .classMember, .assign (.id "0002".toList), .copy]).signature
        .opcode).1 = "0001: wait ".toList := by decide
  have hcurrent : Signature.plain ((ofCommand (Command.new "0001".toList "WAIT".toList)).after
      ([.assign (.id "0002".toList)] ++ [.serialize, .copy])).command .opcode =
        "0002: wait ".toList := by decide
  have hunused : Unused .opcode (Command.new "0001".toList "WAIT".toList)
      [.assign (.id "0002".toList)] := unused_cons.2 ⟨rfl, unused_nil _ _⟩
  refine ⟨?_, hunused, ?_⟩
  · rw [← hvalue]
    exact (signature_of_first_use _ _ .opcode).2.1 [.serialize] (.signature .classMember) _ rfl rfl
      rfl
  · rw [← hcurrent]
    exact (signature_of_first_use _ _ .opcode).2.2.2 _ _ rfl hunused
      (List.forall_mem_cons.2 ⟨rfl, List.forall_mem_cons.2 ⟨rfl, by simp⟩⟩)

end Card

end OpcodeLens
