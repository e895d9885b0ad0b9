import OpcodeLens.Command.Signature

/-!
# Markup of signatures

A signature is highlighted by marking each span that is not plain with a class, and by striking out
unsupported commands. The text itself is escaped, so that `Markup.strip`, which removes tags and
undoes the escapes, gives the signature back.
-/

namespace OpcodeLens

namespace Markup

/-! ### Writing -/

/-- The class that marks a kind of span; plain text is not marked. -/
def className? : SpanKind → Option Text
  | .address => some "opcode-address".toList
  | .name => some "opcode-name".toList
  | .paramName => some "opcode-param-name".toList
  | .paramType => some "opcode-param-type".toList
  | .className => some "opcode-class-name".toList
  | .memberName => some "opcode-member-name".toList
  | .returnVarType => some "opcode-return-var-type".toList
  | .plain => none

/-- A character as it stands in markup. -/
def escapeChar (c : Char) : Text :=
  if c = '&' then ['&', 'a', 'm', 'p', ';']
  else if c = '<' then ['&', 'l', 't', ';']
  else if c = '>' then ['&', 'g', 't', ';']
  else [c]

/-- A text as it stands in markup. -/
def escape (text : Text) : Text := text.flatMap escapeChar

/-- The tag that opens a marked span. -/
def openTag (name : Text) : Text := "<span class=\"".toList ++ name ++ "\">".toList

/-- The tag that closes a marked span. -/
def closeTag : Text := "</span>".toList

/-- A span with its marks. -/
def renderSpan (span : Span) : Text :=
  match className? span.kind with
  | some name => openTag name ++ escape span.text ++ closeTag
  | none => escape span.text

/-- A list of spans with their marks, struck out for unsupported commands. -/
def render (spans : List Span) (isUnsupported : Bool) : Text :=
  if isUnsupported then "<s>".toList ++ spans.flatMap renderSpan ++ "</s>".toList
  else spans.flatMap renderSpan

/-- A signature of the command with the marks of its spans. A text that is not the command's
signature is rendered as plain text. -/
def highlight (signature : Text) (c : Command) (style : Style) : Text :=
  if Signature.plain c style = signature then render (Signature.spans c style) c.isUnsupported
  else render [Signature.plainSpan signature] c.isUnsupported

/-! ### Stripping -/

/-- What follows a tag whose `<` has been taken: a tag has at least one character and ends with the
first `>`. -/
def afterTag? (text : Text) : Option Text :=
  match text.dropWhile (· ≠ '>') with
  | '>' :: rest => if text.head? = some '>' then none else some rest
  | _ => none

theorem length_lt_of_afterTag? {text rest : Text} (h : afterTag? text = some rest) :
    rest.length < text.length := by
  unfold afterTag? at h
  split at h
  · next tail htail =>
    split at h
    · simp at h
    · have hle := (List.dropWhile_suffix (l := text) (· ≠ '>')).length_le
      simp only [Option.some.injEq] at h
      rw [htail, List.length_cons, h] at hle
      omega
  · simp at h

/-- The text without its tags. -/
def dropTags : Text → Text
  | [] => []
  | c :: rest =>
    if c = '<' then
      match _h : afterTag? rest with
      | some tail => dropTags tail
      | none => c :: dropTags rest
    else c :: dropTags rest
termination_by text => text.length
decreasing_by
  · exact Nat.lt_succ_of_lt (length_lt_of_afterTag? _h)
  · exact Nat.lt_succ_self rest.length
  · exact Nat.lt_succ_self rest.length

theorem escapeChar_ne_nil (c : Char) : escapeChar c ≠ [] := by
  unfold escapeChar
  repeat' split
  all_goals simp

/-- Undoes the escape of one character. -/
def unescape (c : Char) : Text → Text
  | [] => []
  | d :: rest =>
    match _h : Text.dropHead? (escapeChar c) (d :: rest) with
    | some tail => c :: unescape c tail
    | none => d :: unescape c rest
termination_by text => text.length
decreasing_by
  · exact Text.length_lt_of_dropHead? (escapeChar_ne_nil c) _h
  · exact Nat.lt_succ_self rest.length

/-- The text of markup: its tags are removed, then its escapes are undone, those of `&` last. -/
def strip (markup : Text) : Text :=
  unescape '&' (unescape '>' (unescape '<' (dropTags markup)))

end Markup

end OpcodeLens
