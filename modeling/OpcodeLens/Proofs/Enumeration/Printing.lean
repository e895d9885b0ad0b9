import OpcodeLens.Proofs.Enumeration.Source
import OpcodeLens.Proofs.Number.Grammar
import OpcodeLens.Proofs.OrderedMap
import Mathlib.Algebra.Order.Ring.Cast

/-!
# Printing enumerations and reading them back

An enumeration is printed as a header, one line per member and a closing line.  What is read back is
what was printed, as long as the printed text can be told apart: names and raw values must not start
or end with blanks, a raw value must be neither a numeral nor look like a quoted text, and no line
of a member may have the closing word in it.  One kind of raw value is still mistaken for a number:
a hexadecimal integer with a second sign, which is no numeral.

* `Enumeration.Written`, `Enumeration.Declaration`, `Enumeration.Listing` : values, members and
  enumerations as they are written, with their printed form.
* `Enumeration.membersAfter` : the members that declarations stand for.  A member without a value
  takes its value from the one right before it.
* `Enumeration.Reads` : the members that are read from printed declarations, and
  `Enumeration.Reads.eq_membersAfter_iff` : they are those that the declarations stand for just if
  no value is mistaken.
* `Enumeration.reads_membersOf` : the body of a printed enumeration is read so.
* `Enumeration.blocks_source` : the blocks of a printed source are its enumerations.
* `Enumeration.parse_source` : **what is read back from a printed source.**
-/

namespace OpcodeLens

namespace Enumeration

/-! ### Printed values and members -/

/-- A value as it is written. -/
inductive Written where
  /-- A whole number: an optional sign and some decimal digits. -/
  | whole (sign : Numeral.Sign) (digits : List (Fin 10)) (nonempty : digits ≠ [])
  /-- A text in quotes. -/
  | quoted (content : Text)
  /-- Anything else. -/
  | raw (text : Text)

/-- The printed form of a value. -/
def Written.text : Written → Text
  | .whole sign digits _ => sign.text ++ Numeral.digitText digits
  | .quoted content => '"' :: (content ++ ['"'])
  | .raw text => text

/-- A raw value can be told from other ones: it is not empty, has no blanks around it, does not
look like a quoted value and is no numeral. -/
def Written.IsPlain : Written → Prop
  | .raw t => t ≠ [] ∧ Text.trim t = t ∧ t.head? ≠ some '"' ∧ t.head? ≠ some '\'' ∧
      ¬Numeral.IsNumeral t
  | .whole _ _ _ => True
  | .quoted _ => True

/-- Is the value a raw one that is taken for a number? -/
def Written.IsMistaken : Written → Prop
  | .raw t => ∃ r, Numeral.TakenFor t r
  | .whole _ _ _ => False
  | .quoted _ => False

/-- A member as it is declared. -/
structure Declaration where
  /-- Its name. -/
  name : Text
  /-- Its value, if one is written. -/
  value : Option Written := none

namespace Declaration

/-- The printed form of the value, which is empty if there is none. -/
def valueText (d : Declaration) : Text := (d.value.map Written.text).getD []

/-- The line of the member: `name` or `name = value`. -/
def line (d : Declaration) : Text :=
  match d.value with
  | none => d.name
  | some v => d.name ++ [' ', '=', ' '] ++ v.text

/-- The line of the member can be told apart. -/
@[mk_iff]
structure Tidy (d : Declaration) : Prop where
  /-- There is a name. -/
  name_ne : d.name ≠ []
  /-- There are no blanks around it. -/
  name_trimmed : Text.trim d.name = d.name
  /-- The name does not have the sign that ends it. -/
  name_free : '=' ∉ d.name
  /-- The line is a single one. -/
  single : '\n' ∉ d.line
  /-- The line does not close the enumeration. -/
  open_line : ¬ Text.HasWord ['e', 'n', 'd'] d.line

instance : DecidablePred Tidy := fun d => decidable_of_iff' _ (tidy_iff d)

/-- The member can be told apart, and so can its value. -/
structure Proper (d : Declaration) : Prop extends Tidy d where
  /-- The value, if there is one, can be told from other kinds of value. -/
  plain : ∀ v ∈ d.value, v.IsPlain

end Declaration

/-- An enumeration as it is written. -/
structure Listing where
  /-- Its name. -/
  name : Text
  /-- Its members. -/
  members : List Declaration

/-! ### What is declared -/

/-- The value of a member that is declared right after one with the value `previous`, or as the
first one.  Without a value of its own, it is one more than a number before it, and zero after
anything else. -/
def valueAfter (previous : Option Value) : Option Written → Value
  | some (.whole sign digits _) => .number (sign.apply (Numeral.digitValue digits))
  | some (.quoted content) => .text content
  | some (.raw text) => .text text
  | none =>
    match previous with
    | some (.number p) => .number (p + 1)
    | _ => .number 0

/-- The members that declarations stand for, the first of them right after `previous`. -/
def membersAfter (previous : Option Value) : List Declaration → List Member
  | [] => []
  | d :: rest =>
    ⟨d.name, valueAfter previous d.value⟩ :: membersAfter (some (valueAfter previous d.value)) rest

/-- The value, if it is a number, stays below nine quadrillion in magnitude. -/
def Value.IsBounded : Value → Prop
  | .number r => |r| < 9000000000000000
  | .text _ => True

instance : DecidablePred Value.IsBounded
  | .number r => inferInstanceAs (Decidable (|r| < 9000000000000000))
  | .text _ => inferInstanceAs (Decidable True)

/-- The lines of members, each of them ended. -/
def linesText (declarations : List Declaration) : Text :=
  declarations.flatMap fun d => d.line ++ ['\n']

namespace Listing

/-- What stands between the name and the closing word. -/
def body (l : Listing) : Text := '\n' :: linesText l.members

/-- The printed form of an enumeration: its header, the lines of its members, and `end`. -/
def text (l : Listing) : Text :=
  ['e', 'n', 'u', 'm', ' '] ++ l.name ++ l.body ++ ['e', 'n', 'd', '\n']

/-- The printed form of an enumeration can be told apart. -/
structure Proper (l : Listing) : Prop where
  /-- There is a name. -/
  name_ne : l.name ≠ []
  /-- It is a word. -/
  name_word : l.name.all Text.isWord = true
  /-- So can the lines of its members. -/
  members : ∀ d ∈ l.members, d.Proper
  /-- No number, written or counted, reaches nine quadrillion in magnitude. -/
  bounded : ∀ m ∈ membersAfter none l.members, m.value.IsBounded

end Listing

/-- The printed form of some enumerations, one after the other. -/
def source (listings : List Listing) : Text := listings.flatMap Listing.text

/-! ### Lines -/

theorem lineItem?_name {name : Text} (hne : name ≠ []) (htrim : Text.trim name = name)
    (hfree : '=' ∉ name) : lineItem? name = some (name, []) := by
  have hempty : name.isEmpty = false := by simpa using hne
  unfold lineItem?
  simp only [htrim, hempty, Bool.false_eq_true, if_false, Text.splitFirst?_eq_none hfree]

/-- A line is divided at its first `=`. -/
theorem lineItem?_divided {head tail : Text}
    (htrim : Text.trim (head ++ '=' :: tail) = head ++ '=' :: tail) (hfree : '=' ∉ head) :
    lineItem? (head ++ '=' :: tail) = some (Text.trimEnd head, Text.trim tail) := by
  have hempty : (head ++ '=' :: tail).isEmpty = false := by simp
  unfold lineItem?
  simp only [htrim, hempty, Bool.false_eq_true, if_false, Text.splitFirst?_append hfree]

theorem lineItem?_value {name value : Text} (hne : name ≠ []) (htrim : Text.trim name = name)
    (hfree : '=' ∉ name) (hvne : value ≠ []) (hvtrim : Text.trim value = value) :
    lineItem? (name ++ [' ', '=', ' '] ++ value) = some (name, value) := by
  have hspace : Text.isBlank ' ' = true := by decide
  have hends := Text.trim_eq_self_iff.1 htrim
  have hvends := Text.trim_eq_self_iff.1 hvtrim
  have heq : name ++ [' ', '=', ' '] ++ value = (name ++ [' ']) ++ '=' :: ' ' :: value := by simp
  have hline : Text.trim (name ++ [' ', '=', ' '] ++ value) = name ++ [' ', '=', ' '] ++ value := by
    rw [Text.trim_eq_self_iff, List.append_assoc, List.head?_append_of_ne_nil _ hne,
      ← List.append_assoc, List.getLast?_append_of_ne_nil _ hvne]
    exact ⟨hends.1, hvends.2⟩
  rw [heq] at hline ⊢
  rw [lineItem?_divided hline (by simp [hfree]), Text.trimEnd_concat hspace,
    Text.trimEnd_eq_self_iff.2 hends.2, Text.trim_cons hspace, hvtrim]

/-- A whole number has neither blanks nor quotes in it. -/
theorem mem_whole (sign : Numeral.Sign) (digits : List (Fin 10)) :
    ∀ c ∈ sign.text ++ Numeral.digitText digits,
      Text.isBlank c = false ∧ c ≠ '"' ∧ c ≠ '\'' := by
  have hsign : ∀ c ∈ sign.text, Text.isBlank c = false ∧ c ≠ '"' ∧ c ≠ '\'' := by
    intro c hc
    cases sign with
    | none => cases hc
    | plus =>
      obtain rfl := List.mem_singleton.1 hc
      decide
    | minus =>
      obtain rfl := List.mem_singleton.1 hc
      decide
  have hdigit : ∀ d : Fin 10, Text.isBlank (Nat.digitChar d.val) = false ∧
      Nat.digitChar d.val ≠ '"' ∧ Nat.digitChar d.val ≠ '\'' := by
    decide
  intro c hc
  rcases List.mem_append.1 hc with hc | hc
  · exact hsign c hc
  · obtain ⟨d, -, rfl⟩ := List.mem_map.1 hc
    exact hdigit d

theorem whole_trimmed (sign : Numeral.Sign) (digits : List (Fin 10)) :
    Text.trim (sign.text ++ Numeral.digitText digits) = sign.text ++ Numeral.digitText digits := by
  rw [Text.trim_eq_self_iff]
  exact ⟨fun c hc => (mem_whole sign digits c (List.mem_of_mem_head? hc)).1,
    fun c hc => (mem_whole sign digits c (List.mem_of_mem_getLast? hc)).1⟩

theorem quoted_trimmed (content : Text) :
    Text.trim ('"' :: (content ++ ['"'])) = '"' :: (content ++ ['"']) := by
  have hquote : Text.isBlank '"' = false := by decide
  rw [Text.trim_eq_self_iff, ← List.cons_append, List.getLast?_concat]
  simp [hquote]

namespace Declaration

variable {d : Declaration}

/-- A printed value is not empty and has no blanks around it. -/
theorem Proper.text_trimmed (h : d.Proper) {v : Written} (hv : d.value = some v) :
    v.text ≠ [] ∧ Text.trim v.text = v.text := by
  cases v with
  | whole sign digits nonempty =>
    exact ⟨by simp [Written.text, Numeral.digitText, nonempty], whole_trimmed sign digits⟩
  | quoted content => exact ⟨by simp [Written.text], quoted_trimmed content⟩
  | raw t =>
    obtain ⟨hne, htrim, -⟩ := h.plain _ hv
    exact ⟨hne, htrim⟩

/-- **The line of a member is read as its name and its value.** -/
theorem Proper.lineItem?_line (h : d.Proper) : lineItem? d.line = some (d.name, d.valueText) := by
  unfold line valueText
  cases hv : d.value with
  | none => exact lineItem?_name h.name_ne h.name_trimmed h.name_free
  | some v =>
    obtain ⟨hne, htrim⟩ := h.text_trimmed hv
    exact lineItem?_value h.name_ne h.name_trimmed h.name_free hne htrim

end Declaration

theorem linesText_cons (d : Declaration) (declarations : List Declaration) :
    linesText (d :: declarations) = d.line ++ '\n' :: linesText declarations := by
  simp [linesText]

theorem splitLines_linesText {declarations : List Declaration} (h : ∀ d ∈ declarations, d.Proper) :
    Text.splitLines (linesText declarations) = declarations.map Declaration.line ++ [[]] := by
  induction declarations with
  | nil => rfl
  | cons d declarations ih =>
    obtain ⟨hd, hrest⟩ := List.forall_mem_cons.1 h
    rw [linesText_cons, Text.splitLines_append hd.single, ih hrest, List.map_cons, List.cons_append]

theorem items_body {l : Listing} (h : l.Proper) :
    items l.body = l.members.map fun d => (d.name, d.valueText) := by
  have hblank : lineItem? [] = none := rfl
  have hbody : l.body.elem '\n' = true := by simp [Listing.body]
  have hlines : Text.splitLines l.body = [] :: (l.members.map Declaration.line ++ [[]]) := by
    rw [Listing.body, ← splitLines_linesText h.members]
    exact Text.splitLines_append List.not_mem_nil _
  have hitems : l.members.filterMap (lineItem? ∘ Declaration.line) =
      l.members.map fun d => (d.name, d.valueText) := by
    rw [← List.filterMap_eq_map]
    exact List.filterMap_congr fun d hd => (h.members d hd).lineItem?_line
  rw [items, if_pos hbody, hlines, List.filterMap_cons, hblank]
  dsimp only
  rw [List.filterMap_append, List.filterMap_map, hitems, List.filterMap_cons, hblank,
    List.filterMap_nil, List.append_nil]

/-! ### What is read -/

/-- The counter after a member with the given value, or before the first member. -/
def counterAfter : Option Value → Rat
  | some (.number p) => Number.succ p
  | _ => 0

/-- The value that is read where a value is printed, or none is, right after a member with the value
`previous`. -/
inductive ReadAs (previous : Option Value) : Option Written → Value → Prop
  /-- A member without a value goes on counting. -/
  | counted : ReadAs previous none (.number (counterAfter previous))
  /-- A whole number is read as what it says. -/
  | whole (sign : Numeral.Sign) (digits : List (Fin 10)) (nonempty : digits ≠ []) :
      ReadAs previous (some (.whole sign digits nonempty))
        (.number (sign.apply (Numeral.digitValue digits)))
  /-- A quoted value is read without its quotes. -/
  | quoted (content : Text) : ReadAs previous (some (.quoted content)) (.text content)
  /-- A raw value is read as it stands. -/
  | raw {t : Text} (h : ∀ r, ¬Numeral.TakenFor t r) : ReadAs previous (some (.raw t)) (.text t)
  /-- A raw value is taken for a number. -/
  | mistaken {t : Text} {r : Rat} (h : Numeral.TakenFor t r) :
      ReadAs previous (some (.raw t)) (.number r)

/-- The members that are read from printed declarations, the first of them right after a member with
the value `previous`. -/
inductive Reads : Option Value → List Declaration → List Member → Prop
  /-- There are none. -/
  | nil {previous : Option Value} : Reads previous [] []
  /-- A member has the name that is declared, and the value that is read for it. -/
  | cons {previous : Option Value} {d : Declaration} {value : Value} {rest : List Declaration}
      {members : List Member} (h : ReadAs previous d.value value)
      (hrest : Reads (some value) rest members) :
      Reads previous (d :: rest) (⟨d.name, value⟩ :: members)

/-- What does not start with a quote is a number if it can be read as one. -/
theorem assign_of_head? (counter : Rat) {written : Text} (hne : written ≠ [])
    (hdouble : written.head? ≠ some '"') (hsingle : written.head? ≠ some '\'') :
    assign counter written = match Numeral.read? written with
      | some r => (.number r, Number.succ r)
      | none => (.text written, 0) := by
  obtain ⟨c, rest, rfl⟩ := List.exists_cons_of_ne_nil hne
  have hc : (c = '"' || c = '\'') = false := by
    have hcd : c ≠ '"' := fun h => hdouble (congrArg some h)
    have hcs : c ≠ '\'' := fun h => hsingle (congrArg some h)
    simp [hcd, hcs]
  unfold assign
  dsimp only
  rw [hc]
  rfl

/-- **What a printed value is read as**, and the counter that it leaves. -/
theorem exists_readAs {d : Declaration} (hd : d.Proper)
    (hsmall : ∀ sign digits nonempty, d.value = some (.whole sign digits nonempty) →
      Numeral.digitValue digits < 2 ^ 53) (previous : Option Value) :
    ∃ value, ReadAs previous d.value value ∧
      assign (counterAfter previous) d.valueText = (value, counterAfter (some value)) := by
  unfold Declaration.valueText
  cases hv : d.value with
  | none => exact ⟨_, .counted, rfl⟩
  | some v =>
    cases v with
    | whole sign digits nonempty =>
      have hquote := mem_whole sign digits
      have hassign := assign_of_head? (counterAfter previous) (hd.text_trimmed hv).1
        (fun h => (hquote _ (List.mem_of_mem_head? h)).2.1 rfl)
        (fun h => (hquote _ (List.mem_of_mem_head? h)).2.2 rfl)
      rw [Written.text, Numeral.read?_whole sign nonempty (hsmall _ _ _ hv)] at hassign
      exact ⟨_, .whole sign digits nonempty, hassign⟩
    | quoted content =>
      have hclose : Text.dropLastIf '"' (content ++ ['"']) = content := by simp [Text.dropLastIf]
      exact ⟨_, .quoted content, congrArg (fun t => (Value.text t, (0 : Rat))) hclose⟩
    | raw t =>
      obtain ⟨hne, -, hdouble, hsingle, hnumeral⟩ := hd.plain _ hv
      have hassign := assign_of_head? (counterAfter previous) hne hdouble hsingle
      have hread : ∀ r, Numeral.read? t = some r ↔ Numeral.TakenFor t r :=
        fun r => Numeral.read?_of_not_isNumeral hnumeral
      cases hr : Numeral.read? t with
      | none =>
        rw [hr] at hassign
        refine ⟨_, .raw fun r htaken => ?_, hassign⟩
        exact nomatch hr.symm.trans ((hread r).2 htaken)
      | some r =>
        rw [hr] at hassign
        exact ⟨_, .mistaken ((hread r).1 hr), hassign⟩

theorem reads_membersFrom {declarations : List Declaration}
    (hproper : ∀ d ∈ declarations, d.Proper)
    (hsmall : ∀ d ∈ declarations, ∀ sign digits nonempty,
      d.value = some (.whole sign digits nonempty) → Numeral.digitValue digits < 2 ^ 53)
    (previous : Option Value) :
    Reads previous declarations
      (membersFrom (counterAfter previous) (declarations.map fun d => (d.name, d.valueText))) := by
  induction declarations generalizing previous with
  | nil => exact .nil
  | cons d declarations ih =>
    obtain ⟨hd, hrest⟩ := List.forall_mem_cons.1 hproper
    obtain ⟨hsmalld, hsmalls⟩ := List.forall_mem_cons.1 hsmall
    obtain ⟨value, hread, hassign⟩ := exists_readAs hd hsmalld previous
    rw [List.map_cons, membersFrom, hassign]
    exact .cons hread (ih hrest hsmalls (some value))

/-! ### What was meant -/

theorem natAbs_lt {n : Int} (h : |(n : Rat)| < 9000000000000000) :
    n.natAbs < 9000000000000000 := by
  rw [← Int.cast_abs, Int.abs_eq_natAbs] at h
  exact_mod_cast h

/-- Whole numbers that are written stand among the members, whatever comes before them. -/
theorem digitValue_lt {declarations : List Declaration} {previous : Option Value}
    (hbound : ∀ m ∈ membersAfter previous declarations, m.value.IsBounded) :
    ∀ d ∈ declarations, ∀ sign digits nonempty,
      d.value = some (.whole sign digits nonempty) → Numeral.digitValue digits < 2 ^ 53 := by
  induction declarations generalizing previous with
  | nil => exact fun d hd => nomatch hd
  | cons d declarations ih =>
    obtain ⟨hvalue, hvalues⟩ := List.forall_mem_cons.1 hbound
    refine List.forall_mem_cons.2 ⟨fun sign digits nonempty hv => ?_, ih hvalues⟩
    rw [hv] at hvalue
    have hnat := natAbs_lt hvalue
    rw [Numeral.Sign.natAbs_apply] at hnat
    omega

/-- **The body of a printed enumeration is read member by member.** -/
theorem reads_membersOf {l : Listing} (h : l.Proper) :
    Reads none l.members (membersOf l.body) := by
  rw [membersOf, items_body h]
  exact reads_membersFrom h.members (digitValue_lt h.bounded) none

/-- The value, if it is a number, is a whole one within the bound. -/
def IsCounted (value : Option Value) : Prop :=
  ∀ r, value = some (.number r) → (∃ n : Int, r = n) ∧ |r| < 9000000000000000

/-- Whole numbers within the bound are counted on exactly. -/
theorem IsCounted.valueAfter_none {previous : Option Value} (h : IsCounted previous) :
    valueAfter previous none = .number (counterAfter previous) := by
  rcases previous with - | (p | t)
  · rfl
  · obtain ⟨⟨n, rfl⟩, hlt⟩ := h p rfl
    have hnat := natAbs_lt hlt
    exact congrArg Value.number (Number.succ_intCast (by omega)).symm
  · rfl

theorem IsCounted.valueAfter {previous : Option Value} (h : IsCounted previous)
    {written : Option Written} (hbound : (valueAfter previous written).IsBounded) :
    IsCounted (some (valueAfter previous written)) := by
  intro r hr
  have hr' : Enumeration.valueAfter previous written = .number r := Option.some.inj hr
  rw [hr'] at hbound
  refine ⟨?_, hbound⟩
  match written, previous with
  | some (.whole sign digits _), _ =>
    cases hr'
    exact ⟨_, rfl⟩
  | none, some (.number p) =>
    cases hr'
    obtain ⟨n, rfl⟩ := (h p rfl).1
    exact ⟨n + 1, by push_cast; rfl⟩
  | none, some (.text _) =>
    cases hr'
    exact ⟨0, by simp⟩
  | none, none =>
    cases hr'
    exact ⟨0, by simp⟩

/-- A value is read as what it stands for just if it is not mistaken. -/
theorem ReadAs.eq_valueAfter_iff {previous : Option Value} {written : Option Written}
    {value : Value} (h : ReadAs previous written value) (hprevious : IsCounted previous) :
    value = valueAfter previous written ↔ ∀ v ∈ written, ¬v.IsMistaken := by
  cases h with
  | counted =>
    rw [hprevious.valueAfter_none]
    exact ⟨fun _ v hv => (nomatch hv), fun _ => rfl⟩
  | whole sign digits nonempty =>
    refine ⟨fun _ v hv => ?_, fun _ => rfl⟩
    obtain rfl := Option.some.inj hv
    exact id
  | quoted content =>
    refine ⟨fun _ v hv => ?_, fun _ => rfl⟩
    obtain rfl := Option.some.inj hv
    exact id
  | raw hfree =>
    refine ⟨fun _ v hv => ?_, fun _ => rfl⟩
    obtain rfl := Option.some.inj hv
    exact fun ⟨r, htaken⟩ => hfree r htaken
  | mistaken htaken => exact ⟨fun heq => (nomatch heq), fun hfree => (hfree _ rfl ⟨_, htaken⟩).elim⟩

/-- **The members that are read are those that were meant just if no value is mistaken.** -/
theorem Reads.eq_membersAfter_iff {previous : Option Value} {declarations : List Declaration}
    {members : List Member} (h : Reads previous declarations members)
    (hprevious : IsCounted previous)
    (hbound : ∀ m ∈ membersAfter previous declarations, m.value.IsBounded) :
    members = membersAfter previous declarations ↔
      ∀ d ∈ declarations, ∀ v ∈ d.value, ¬v.IsMistaken := by
  induction h with
  | nil => exact ⟨fun _ d hd => (nomatch hd), fun _ => rfl⟩
  | @cons previous d value rest members hvalue _ ih =>
    obtain ⟨hfirst, hothers⟩ := List.forall_mem_cons.1 hbound
    rw [membersAfter, List.forall_mem_cons, ← hvalue.eq_valueAfter_iff hprevious, List.cons.injEq,
      Member.mk.injEq, eq_self_iff_true, true_and]
    refine and_congr_right fun heq => ?_
    subst heq
    exact ih (hprevious.valueAfter hfirst) hothers

/-! ### Blocks -/

/-- The lines of members do not close the enumeration, the closing line does. -/
theorem splitAtEnd?_linesText {declarations : List Declaration}
    (h : ∀ d ∈ declarations, d.Proper) (rest : Text) :
    splitAtEnd? false (linesText declarations ++ ['e', 'n', 'd', '\n'] ++ rest) =
      some (linesText declarations, '\n' :: rest) := by
  induction declarations with
  | nil => rfl
  | cons d declarations ih =>
    obtain ⟨hd, hrest⟩ := List.forall_mem_cons.1 h
    have hline := splitAtEnd?_eq_none_iff.2 hd.open_line
    rw [linesText_cons, List.append_assoc, List.append_assoc, List.cons_append,
      splitAtEnd?_line hline, ← List.append_assoc, ih hrest, Option.map_some]

namespace Listing

/-- The block that a printed enumeration is. -/
def block (l : Listing) : Block := ⟨l.name, l.body⟩

variable {l : Listing}

theorem Proper.blockAt?_text (h : l.Proper) (rest : Text) :
    blockAt? (l.text ++ rest) = some (l.block, '\n' :: rest) := by
  have htext : l.text ++ rest = ['e', 'n', 'u', 'm', ' '] ++ l.name ++
      '\n' :: (linesText l.members ++ ['e', 'n', 'd', '\n'] ++ rest) := by
    simp [text, body]
  -- the name has just ended, so that the closing word is looked for after the line feed
  have hbody : splitAtEnd? true ('\n' :: (linesText l.members ++ ['e', 'n', 'd', '\n'] ++ rest)) =
      some (l.body, '\n' :: rest) := by
    have hnil : splitAtEnd? true [] = none := rfl
    have hnewline := splitAtEnd?_line hnil (linesText l.members ++ ['e', 'n', 'd', '\n'] ++ rest)
    rw [splitAtEnd?_linesText h.members] at hnewline
    exact hnewline
  rw [htext, blockAt?, header?_eq_some h.name_ne (List.all_eq_true.1 h.name_word)]
  dsimp only
  rw [hbody]
  rfl

theorem Proper.firstBlock?_text (h : l.Proper) (rest : Text) :
    firstBlock? false (l.text ++ rest) = some ([], l.block, '\n' :: rest) :=
  firstBlock?_of_blockAt? (h.blockAt?_text rest)

end Listing

/-- The blocks after the line feed that ends a closing line. -/
theorem blocks_newline_source {listings : List Listing} (h : ∀ l ∈ listings, l.Proper)
    (line : Nat) :
    blocks true line ('\n' :: source listings) = .ok (listings.map Listing.block) := by
  induction listings generalizing line with
  | nil => exact blocks_of_no_block rfl rfl
  | cons l listings ih =>
    obtain ⟨hl, hrest⟩ := List.forall_mem_cons.1 h
    have hfirst : firstBlock? true ('\n' :: source (l :: listings)) =
        some (['\n'], l.block, '\n' :: source listings) := by
      have hnewline : Text.isWord '\n' = false := by decide
      rw [firstBlock?_true_cons, hnewline, source, List.flatMap_cons, hl.firstBlock?_text]
      rfl
    rw [blocks_of_firstBlock? hfirst rfl, ih hrest]
    rfl

/-- **The blocks of a printed source are its enumerations.** -/
theorem blocks_source {listings : List Listing} (h : ∀ l ∈ listings, l.Proper) (line : Nat) :
    blocks false line (source listings) = .ok (listings.map Listing.block) := by
  cases listings with
  | nil => exact blocks_of_no_block rfl rfl
  | cons l listings =>
    obtain ⟨hl, hrest⟩ := List.forall_mem_cons.1 h
    have hfirst := hl.firstBlock?_text (source listings)
    rw [source, List.flatMap_cons, ← source, blocks_of_firstBlock? hfirst rfl,
      blocks_newline_source hrest]
    rfl

/-- What is read back where an enumeration is printed. -/
structure Listing.ReadBack (l : Listing) (e : Enumeration) : Prop where
  /-- Its name. -/
  name : e.name = l.name
  /-- Its members, with the values that are read for them. -/
  members : Reads none l.members e.members
  /-- They are the members that were meant just if no value is mistaken. -/
  meant : e.members = membersAfter none l.members ↔
    ∀ d ∈ l.members, ∀ v ∈ d.value, ¬v.IsMistaken

theorem Listing.Proper.readBack {l : Listing} (h : l.Proper) : l.ReadBack (ofBlock l.block) where
  name := rfl
  members := reads_membersOf h
  meant := (reads_membersOf h).eq_membersAfter_iff nofun h.bounded

/-- A printed source is read block by block. -/
theorem parse_source_eq {listings : List Listing} (h : ∀ l ∈ listings, l.Proper) :
    parse (source listings) = .ok (.ofList (listings.map fun l => (l.name, ofBlock l.block))) := by
  rw [parse, blocks_source h, Except.map, List.map_map]
  rfl

/-- **What is read back from a printed source.**  The names come in the order of their first
occurrence, and each has the members of the last enumeration that was printed under it.  Their
values are those that were meant, unless some raw value, which is no numeral, is a hexadecimal
integer with a second sign; that is taken for a number, and what follows counts on from it. -/
theorem parse_source (listings : List Listing) (h : ∀ l ∈ listings, l.Proper) :
    ∃ m, parse (source listings) = .ok m ∧
      m.keys = (listings.map (·.name)).eraseDups ∧
      ∀ l, (listings.filter fun k => k.name = l.name).getLast? = some l →
        ∃ e, m.get? l.name = some e ∧ l.ReadBack e := by
  refine ⟨_, parse_source_eq h, ?_, fun l hlast => ?_⟩
  · rw [OrderedMap.keys_ofList, List.map_map]
    rfl
  · have hmem : l ∈ listings := (List.mem_filter.1 (List.mem_of_getLast? hlast)).1
    refine ⟨ofBlock l.block, ?_, (h l hmem).readBack⟩
    rw [OrderedMap.get?_ofList, List.filter_map, List.getLast?_map, Option.map_map]
    exact congrArg (Option.map _) hlast

/-- All but the kinds of the values can be decided. -/
theorem proper_of_tidy {listings : List Listing}
    (htidy : ∀ l ∈ listings, l.name ≠ [] ∧ l.name.all Text.isWord = true ∧
      (∀ d ∈ l.members, d.Tidy) ∧ ∀ m ∈ membersAfter none l.members, m.value.IsBounded)
    (hplain : ∀ l ∈ listings, ∀ d ∈ l.members, ∀ v ∈ d.value, v.IsPlain) :
    ∀ l ∈ listings, l.Proper := by
  intro l hl
  obtain ⟨hne, hword, hmembers, hbounded⟩ := htidy l hl
  exact ⟨hne, hword, fun d hd => ⟨hmembers d hd, hplain l hl d hd⟩, hbounded⟩

/-- Two enumerations of one name with another one between them, and all kinds of values. -/
def towns : List Listing :=
  [⟨"Town".toList, [⟨"Ghost".toList, none⟩]⟩,
   ⟨"Sign".toList,
    [⟨"Legend".toList, none⟩,
     ⟨"Friend".toList, some (.whole .minus [0, 2] (by decide))⟩,
     ⟨"Next".toList, none⟩,
     ⟨"Motto".toList, some (.quoted "say \"a = b\"".toList)⟩,
     ⟨"First".toList, none⟩,
     ⟨"Kind".toList, some (.raw "SOME = CONST".toList)⟩]⟩,
   ⟨"Town".toList, [⟨"Harbour".toList, some (.whole .none [4, 1] (by decide))⟩,
     ⟨"Station".toList, none⟩]⟩]

theorem not_isNumeral_kind : ¬Numeral.IsNumeral "SOME = CONST".toList :=
  fun h => absurd h.head? (by decide)

theorem towns_proper : ∀ l ∈ towns, l.Proper := by
  have hkind : (Written.raw "SOME = CONST".toList).IsPlain :=
    ⟨by decide, by decide, by decide, by decide, not_isNumeral_kind⟩
  refine proper_of_tidy (by decide +kernel) ?_
  simpa [towns, Written.IsPlain] using hkind

theorem towns_not_mistaken : ∀ l ∈ towns, ∀ d ∈ l.members, ∀ v ∈ d.value, ¬v.IsMistaken := by
  have hkind : ¬(Written.raw "SOME = CONST".toList).IsMistaken := by
    rintro ⟨r, htaken⟩
    have hnone : Numeral.read? "SOME = CONST".toList = none := by decide +kernel
    exact nomatch hnone.symm.trans ((Numeral.read?_of_not_isNumeral not_isNumeral_kind).2 htaken)
  simpa [towns, Written.IsMistaken] using hkind

theorem towns_read_back :
    (∀ l ∈ towns, l.Proper) ∧
    ∃ m, parse (source towns) = .ok m ∧ m.keys = ["Town".toList, "Sign".toList] ∧
      m.get? "Town".toList =
        some ⟨"Town".toList, [⟨"Harbour".toList, .number 41⟩, ⟨"Station".toList, .number 42⟩]⟩ ∧
      m.get? "Sign".toList =
        some ⟨"Sign".toList, [⟨"Legend".toList, .number 0⟩, ⟨"Friend".toList, .number (-2)⟩,
          ⟨"Next".toList, .number (-1)⟩, ⟨"Motto".toList, .text "say \"a = b\"".toList⟩,
          ⟨"First".toList, .number 0⟩, ⟨"Kind".toList, .text "SOME = CONST".toList⟩]⟩ := by
  obtain ⟨m, hparse, hkeys, hlast⟩ := parse_source towns towns_proper
  have hmeant : ∀ l ∈ towns, (towns.filter fun k => k.name = l.name).getLast? = some l →
      m.get? l.name = some ⟨l.name, membersAfter none l.members⟩ := by
    intro l hl hfilter
    obtain ⟨e, he, hback⟩ := hlast l hfilter
    rw [he, ← hback.name, ← hback.meant.2 (towns_not_mistaken l hl)]
  refine ⟨towns_proper, m, hparse, hkeys.trans ?_, ?_, ?_⟩
  · decide +kernel
  · exact (hmeant towns[2] (List.getElem_mem _) rfl).trans (by decide +kernel)
  · exact (hmeant towns[1] (List.getElem_mem _) rfl).trans (by decide +kernel)

/-- A raw value with a second sign, and a member that counts on from it. -/
def offsets : List Listing :=
  [⟨"E".toList, [⟨"a".toList, some (.raw "0x-5".toList)⟩, ⟨"b".toList, none⟩]⟩]

theorem offsets_proper : ∀ l ∈ offsets, l.Proper := by
  have hsecond : Numeral.HasSecondSign "0x-5".toList :=
    ⟨.none, .minus, false, ['5'], by decide, rfl⟩
  have hoffset : (Written.raw "0x-5".toList).IsPlain :=
    ⟨by decide, by decide, by decide, by decide, hsecond.not_isNumeral⟩
  refine proper_of_tidy (by decide +kernel) ?_
  simpa [offsets, Written.IsPlain] using hoffset

/-- The raw value comes back as a number, although it is no numeral, and the next member counts on
from that instead of starting again. -/
theorem offsets_taken_for_numbers :
    (∀ l ∈ offsets, l.Proper) ∧ source offsets = "enum E\na = 0x-5\nb\nend\n".toList ∧
      membersAfter none [⟨"a".toList, some (.raw "0x-5".toList)⟩, ⟨"b".toList, none⟩] =
        [⟨"a".toList, .text "0x-5".toList⟩, ⟨"b".toList, .number 0⟩] ∧
      ∃ m, parse (source offsets) = .ok m ∧
        m.get? "E".toList =
          some ⟨"E".toList, [⟨"a".toList, .number (-5)⟩, ⟨"b".toList, .number (-4)⟩]⟩ :=
  ⟨offsets_proper, by decide +kernel, by decide +kernel, _, parse_source_eq offsets_proper,
    by decide +kernel⟩

end Enumeration

end OpcodeLens
