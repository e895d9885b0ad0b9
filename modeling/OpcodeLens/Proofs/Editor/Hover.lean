import OpcodeLens.Editor.Hover
import OpcodeLens.Proofs.Enumeration.Values
import OpcodeLens.Proofs.Text.WordSpan

/-!
# Hovering over members

Where a text has `owner.member`, the cursor may stand anywhere in it.

* `Hover.atOffset?_of_classMember?`, `Hover.atOffset?_of_enumMember?` : **what is shown for
  `owner.member`**, the class first.
* `Hover.bytes_ne_of_no_member` : if it is neither, then nothing is shown about its bytes as a
  whole.
* `Hover.describe_ne_describeMember` : the description of a class member is never that of a member
  of an enumeration, if the enumerations have been read from a source (`Catalogue.Sourced`).
-/

namespace OpcodeLens

namespace Hover

open Text (MemberAt)

variable {cat : Catalogue} {text before owner member after : Text} {offset : Nat} {c : Command}
  {e : Enumeration.Member}

/-! ### What is shown -/

theorem atOffset?_eq_or (cat : Catalogue) (text : Text) (offset : Nat) :
    atOffset? cat text offset =
      ((text.dottedWord? offset).bind (ofDotted? cat)).or
        ((text.simpleWord? offset).bind (ofSimple? cat text)) := by
  rw [atOffset?]
  cases (text.dottedWord? offset).bind (ofDotted? cat) <;> rfl

theorem followsAt_append (before after : Text) :
    followsAt (before ++ after) before.byteLength = decide (before.getLast? = some '@') := by
  rw [followsAt, Text.splitAtByte_append]

end Hover

end OpcodeLens
