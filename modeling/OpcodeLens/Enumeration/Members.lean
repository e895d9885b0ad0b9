import OpcodeLens.Enumeration.Basic
import OpcodeLens.Number.Numeral
import OpcodeLens.Text.Blank

/-!
# The members of an enumeration

The body of an enumeration is either one line of items `name` or `name=value`, divided by white
space, or several lines with one item each. Both are cut into pairs of a name and a written value
(`Enumeration.items`), empty where there is none, and the pairs get their values from left to right
(`Enumeration.assign`): a member without a value continues a counter, a numeric value moves the
counter past itself, and any other value sets it back to zero.
-/

namespace OpcodeLens

namespace Enumeration

/-! ### Items on one line -/

/-- White space between the items of a line: space, tab, line feed, form feed and carriage return.
-/
def isGap (c : Char) : Bool :=
  c = ' ' || c = '\t' || c = '\n' || c.toNat = 0x0C || c = '\r'

/-- A character of an item's name. -/
def isItemNameChar (c : Char) : Bool := !isGap c && c ≠ '='

/-- Cuts a value off the front of a text: up to the closing quote (or the end) if it starts with a
quote, up to the next white space otherwise. -/
def splitValue : Text → Text × Text
  | [] => ([], [])
  | c :: rest =>
    if c = '"' || c = '\'' then
      let tail := rest.dropWhile (· ≠ c)
      (c :: rest.takeWhile (· ≠ c) ++ tail.take 1, tail.drop 1)
    else ((c :: rest).takeWhile (!isGap ·), (c :: rest).dropWhile (!isGap ·))

/-- Cuts an item off the front of a text that starts with no white space: its name, its value (empty
without an `=`) and what follows. -/
def splitItem (text : Text) : (Text × Text) × Text :=
  let name := text.takeWhile isItemNameChar
  let rest := text.dropWhile isItemNameChar
  match rest.dropWhile isGap with
  | '=' :: tail =>
    let (value, after) := splitValue (tail.dropWhile isGap)
    ((name, value), after)
  | _ => ((name, []), rest)

theorem length_dropWhile_le (p : Char → Bool) (text : Text) :
    (text.dropWhile p).length ≤ text.length :=
  (List.dropWhile_suffix p).length_le

theorem length_splitValue_le (text : Text) : (splitValue text).2.length ≤ text.length := by
  cases text with
  | nil => simp [splitValue]
  | cons c rest =>
    simp only [splitValue]
    split
    · have := length_dropWhile_le (· ≠ c) rest
      simp only [List.length_drop, List.length_cons]
      omega
    · exact length_dropWhile_le _ _

/-- Cutting an item off leaves less. -/
theorem length_splitItem_lt {c : Char} {rest : Text} (hc : isGap c = false) :
    (splitItem (c :: rest)).2.length < (c :: rest).length := by
  unfold splitItem
  by_cases he : c = '='
  · subst he
    have hname : isItemNameChar '=' = false := by decide
    have hgap : isGap '=' = false := by decide
    simp only [List.dropWhile_cons, hname, hgap, Bool.false_eq_true, if_false]
    have h₁ := length_splitValue_le (rest.dropWhile isGap)
    have h₂ := length_dropWhile_le isGap rest
    simp only [List.length_cons]
    omega
  · have hname : isItemNameChar c = true := by simp [isItemNameChar, hc, he]
    simp only [List.dropWhile_cons, hname, if_true]
    have h₀ := length_dropWhile_le isItemNameChar rest
    split
    · next tail htail =>
      have h₁ := length_splitValue_le (tail.dropWhile isGap)
      have h₂ := length_dropWhile_le isGap tail
      have h₃ := length_dropWhile_le isGap (rest.dropWhile isItemNameChar)
      rw [htail] at h₃
      simp only [List.length_cons] at h₃ ⊢
      omega
    · simp only [List.length_cons]
      omega

/-- The items of one line. -/
def inlineItems : Text → List (Text × Text)
  | [] => []
  | c :: rest =>
    if _h : isGap c then inlineItems rest
    else (splitItem (c :: rest)).1 :: inlineItems (splitItem (c :: rest)).2
termination_by text => text.length
decreasing_by
  · exact Nat.lt_succ_self rest.length
  · exact length_splitItem_lt (by simpa using _h)

/-! ### One item a line -/

/-- The item of a line: the value is all that follows the first `=`. A blank line has none. -/
def lineItem? (line : Text) : Option (Text × Text) :=
  let item := Text.trim line
  if item.isEmpty then none
  else
    match item.splitFirst? '=' with
    | some (name, value) => some (Text.trimEnd name, Text.trim value)
    | none => some (item, [])

/-- The items of a body. -/
def items (body : Text) : List (Text × Text) :=
  if body.elem '\n' then (Text.splitLines body).filterMap lineItem? else inlineItems body

/-! ### Values -/

/-- The value of a member with the given counter and written value, and the counter after it. A
quoted value loses its quotes, the closing one only if it is there. -/
def assign (counter : Rat) (written : Text) : Value × Rat :=
  match written with
  | [] => (.number counter, Number.succ counter)
  | c :: rest =>
    if c = '"' || c = '\'' then (.text (Text.dropLastIf c rest), 0)
    else
      match Numeral.read? written with
      | some r => (.number r, Number.succ r)
      | none => (.text written, 0)

/-- The members of items that start with the given counter. -/
def membersFrom (counter : Rat) : List (Text × Text) → List Member
  | [] => []
  | (name, written) :: rest =>
    ⟨name, (assign counter written).1⟩ :: membersFrom (assign counter written).2 rest

/-- The members that a body declares. -/
def membersOf (body : Text) : List Member := membersFrom 0 (items body)

end Enumeration

end OpcodeLens
