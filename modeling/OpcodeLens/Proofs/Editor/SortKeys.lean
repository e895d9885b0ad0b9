import Mathlib.Data.Char
import Mathlib.Data.List.Lex
import Mathlib.Data.List.Pairwise
import Mathlib.Tactic.Ring
import OpcodeLens.Proofs.Editor.Agreement
import OpcodeLens.Proofs.Editor.Completion

/-!
# Sort keys of members

After `owner.` the members of the class come first and then those of the enumeration, each group
with keys that are numerals of one width.  Such numerals are in the order of their numbers, so each
group stays in order when an editor sorts by key.  Both groups start at zero: where an owner has
both, the keys of the second group repeat those of the first.

* `Text.lt_of_ofDigitChars_lt` : numerals of one width are in the order of their numbers.
* `Completion.sortKey_lt_sortKey` : so are the keys below a million.
* `Completion.Ascending`, `Completion.KeptBySorting` : keys in order, and items that no editor which
  sorts by key moves.
* `Completion.sort_keys_ascend_iff` : **the members of an owner stay in their order just if it does
  not have members of both kinds.**
-/

namespace OpcodeLens

namespace Text

/-! ### Numerals of one width -/

/-- Digits after a number lead to less than digits after the next number. -/
theorem ofDigitChars_bounds {digits : Text} (h : ∀ c ∈ digits, c.isDigit = true) (n : Nat) :
    n * 10 ^ digits.length ≤ Nat.ofDigitChars 10 digits n ∧
      Nat.ofDigitChars 10 digits n < (n + 1) * 10 ^ digits.length := by
  induction digits generalizing n with
  | nil => simp [Nat.ofDigitChars_nil]
  | cons c digits ih =>
    obtain ⟨hc, hdigits⟩ := List.forall_mem_cons.1 h
    have hzero : '0'.toNat = 48 := rfl
    have hnine : '9'.toNat = 57 := rfl
    have hdigit := Char.isDigit_iff_toNat.1 hc
    obtain ⟨hlo, hhi⟩ := ih hdigits (10 * n + (c.toNat - '0'.toNat))
    rw [Nat.ofDigitChars_cons, List.length_cons]
    constructor
    · calc n * 10 ^ (digits.length + 1) = 10 * n * 10 ^ digits.length := by ring
        _ ≤ (10 * n + (c.toNat - '0'.toNat)) * 10 ^ digits.length :=
          Nat.mul_le_mul_right _ (Nat.le_add_right _ _)
        _ ≤ _ := hlo
    · calc Nat.ofDigitChars 10 digits (10 * n + (c.toNat - '0'.toNat))
          < (10 * n + (c.toNat - '0'.toNat) + 1) * 10 ^ digits.length := hhi
        _ ≤ (10 * (n + 1)) * 10 ^ digits.length := Nat.mul_le_mul_right _ (by omega)
        _ = (n + 1) * 10 ^ (digits.length + 1) := by ring

/-- **Numerals of one width are in the order of their numbers.** -/
theorem lt_of_ofDigitChars_lt {a b : Text} (ha : ∀ c ∈ a, c.isDigit = true)
    (hb : ∀ c ∈ b, c.isDigit = true) (hlength : a.length = b.length) {n : Nat}
    (h : Nat.ofDigitChars 10 a n < Nat.ofDigitChars 10 b n) : a < b := by
  induction a generalizing b n with
  | nil =>
    obtain rfl : b = [] := List.eq_nil_of_length_eq_zero hlength.symm
    exact absurd h (Nat.lt_irrefl _)
  | cons c a ih =>
    cases b with
    | nil => cases hlength
    | cons d b =>
      have hdigit := Char.isDigit_iff_toNat.1 (hb d List.mem_cons_self)
      replace ha := (List.forall_mem_cons.1 ha).2
      replace hb := (List.forall_mem_cons.1 hb).2
      have htail : a.length = b.length := Nat.succ.inj hlength
      rw [Nat.ofDigitChars_cons, Nat.ofDigitChars_cons] at h
      rw [List.cons_lt_cons_iff]
      rcases lt_trichotomy c d with hcd | rfl | hdc
      · exact .inl hcd
      · exact .inr ⟨rfl, ih ha hb htail h⟩
      · -- a greater first digit makes the number greater, whatever follows
        have hlt : d.toNat < c.toNat := hdc
        have hstep : 10 * n + (d.toNat - '0'.toNat) + 1 ≤ 10 * n + (c.toNat - '0'.toNat) := by
          omega
        have hle := Nat.mul_le_mul_right (10 ^ b.length) hstep
        have hbelow := (ofDigitChars_bounds hb (10 * n + (d.toNat - '0'.toNat))).2
        have habove := (ofDigitChars_bounds ha (10 * n + (c.toNat - '0'.toNat))).1
        rw [htail] at habove
        omega

end Text

namespace Completion

/-! ### Keys -/

theorem isDigit_of_mem_sortKey (n : Nat) : ∀ c ∈ sortKey n, c.isDigit = true := by
  intro c hc
  rcases List.mem_append.1 hc with hc | hc
  · obtain rfl := List.eq_of_mem_replicate hc
    decide
  · exact Nat.isDigit_of_mem_toDigits (by decide) (by decide) hc

theorem length_sortKey {n : Nat} (h : n < 1000000) : (sortKey n).length = 6 := by
  have hlength : (Text.ofNat n).length ≤ 6 :=
    (Nat.length_toDigits_le_iff (by decide) (by decide)).2 h
  rw [sortKey, List.length_append, List.length_replicate]
  omega

/-- A key stands for its number. -/
theorem ofDigitChars_sortKey (n : Nat) : Nat.ofDigitChars 10 (sortKey n) 0 = n := by
  have hzeros : ∀ k, Nat.ofDigitChars 10 (List.replicate k '0') 0 = 0 := by
    intro k
    induction k with
    | zero => rfl
    | succ k ih =>
      rw [List.replicate_succ, Nat.ofDigitChars_cons]
      exact ih
  rw [sortKey, Nat.ofDigitChars_append, hzeros]
  exact Nat.ofDigitChars_toDigits (by decide) (by decide)

/-- **Keys below a million are in the order of their numbers.** -/
theorem sortKey_lt_sortKey {m n : Nat} (h : m < n) (hn : n < 1000000) : sortKey m < sortKey n := by
  refine Text.lt_of_ofDigitChars_lt (n := 0) (isDigit_of_mem_sortKey m) (isDigit_of_mem_sortKey n)
    ?_ ?_
  · rw [length_sortKey (h.trans hn), length_sortKey hn]
  · rwa [ofDigitChars_sortKey, ofDigitChars_sortKey]

/-! ### Sorting by key -/

/-- What editors compare when they sort: the key or, without one, the label. -/
def Item.orderKey (item : Item) : Text := item.sortText.getD item.label

/-- The keys increase along the list. -/
def Ascending (items : List Item) : Prop := items.Pairwise fun a b => a.orderKey < b.orderKey

/-- The items stay where they are, however an editor sorts them by key. -/
def KeptBySorting (items : List Item) : Prop :=
  ∀ shown : List Item, shown.Perm items → shown.Pairwise (fun a b => a.orderKey ≤ b.orderKey) →
    shown = items

theorem map_orderKey_of_map_sortText {items : List Item} {keys : List Text}
    (h : items.map (·.sortText) = keys.map some) : items.map Item.orderKey = keys := by
  induction items generalizing keys with
  | nil => exact (List.map_eq_nil_iff.1 h.symm).symm
  | cons item items ih =>
    cases keys with
    | nil => cases h
    | cons key keys =>
      rw [List.map_cons, List.map_cons, List.cons.injEq] at h
      rw [List.map_cons, ih h.2, Item.orderKey, h.1, Option.getD_some]

/-- Keys in order leave nothing to an editor. -/
theorem Ascending.keptBySorting {items : List Item} (h : Ascending items) :
    KeptBySorting items := by
  intro shown hperm hsorted
  refine hperm.eq_of_pairwise (fun a b ha hb hab hba => ?_) hsorted (h.imp fun hlt => hlt.le)
  -- different items have different keys
  by_contra hne
  have hapart : items.Pairwise fun a b => a.orderKey ≠ b.orderKey := h.imp fun hlt => hlt.ne
  have : Std.Symm fun a b : Item => a.orderKey ≠ b.orderKey := ⟨fun _ _ => Ne.symm⟩
  exact hapart.forall (hperm.subset ha) hb hne (le_antisymm hab hba)

/-- Some arrangement is in order. -/
theorem exists_arrangement (items : List Item) : ∃ shown : List Item, shown.Perm items ∧
    shown.Pairwise fun a b => a.orderKey ≤ b.orderKey := by
  refine ⟨items.mergeSort fun a b => decide (a.orderKey ≤ b.orderKey), List.mergeSort_perm _ _, ?_⟩
  refine (List.pairwise_mergeSort (fun a b c hab hbc => ?_) (fun a b => ?_) items).imp
    fun h => of_decide_eq_true h
  · exact decide_eq_true ((of_decide_eq_true hab).trans (of_decide_eq_true hbc))
  · simpa using le_total a.orderKey b.orderKey

/-- Two items with one key can change places. -/
theorem not_keptBySorting {a b : Item} (hkey : a.orderKey = b.orderKey) (hne : a ≠ b)
    (before middle after : List Item) :
    ¬ KeptBySorting (before ++ a :: (middle ++ b :: after)) := by
  intro hkept
  obtain ⟨shown, hperm, hsorted⟩ := exists_arrangement (before ++ a :: (middle ++ b :: after))
  rw [hkept shown hperm hsorted] at hsorted
  have hmap : (before ++ b :: (middle ++ a :: after)).map Item.orderKey =
      (before ++ a :: (middle ++ b :: after)).map Item.orderKey := by
    simp [hkey]
  have hswapped : (before ++ b :: (middle ++ a :: after)).Pairwise
      fun a b => a.orderKey ≤ b.orderKey := by
    rw [← List.pairwise_map (f := Item.orderKey) (R := (· ≤ ·))] at hsorted ⊢
    rwa [hmap]
  have hswap : (before ++ b :: (middle ++ a :: after)).Perm
      (before ++ a :: (middle ++ b :: after)) := by
    refine List.Perm.append_left before ?_
    have hfront : (b :: (middle ++ a :: after)).Perm (b :: a :: (middle ++ after)) :=
      List.Perm.cons b List.perm_middle
    have hback : (a :: b :: (middle ++ after)).Perm (a :: (middle ++ b :: after)) :=
      List.Perm.cons a List.perm_middle.symm
    exact hfront.trans ((List.Perm.swap a b _).trans hback)
  have heq := hkept _ hswap hswapped
  rw [List.append_cancel_left_eq, List.cons.injEq] at heq
  exact hne heq.1.symm

/-! ### Members -/

theorem map_sortText_methodItems (owner : Text) (place : Nat) (commands : List Command) :
    (methodItems owner place commands).map (·.sortText) =
      (List.range' place (methodItems owner place commands).length).map
        fun n => some (sortKey n) := by
  fun_induction methodItems owner place commands with
  | case1 => rfl
  | case2 place c rest hname ih => exact ih
  | case3 place c rest member hname ih =>
    rw [List.map_cons, List.length_cons, List.range'_succ, List.map_cons, ih]

theorem map_sortText_elementItems (owner : Text) (place : Nat) (members : List Enumeration.Member) :
    (elementItems owner place members).map (·.sortText) =
      (List.range' place (elementItems owner place members).length).map
        fun n => some (sortKey n) := by
  induction members generalizing place with
  | nil => rfl
  | cons m rest ih =>
    rw [elementItems, List.map_cons, List.length_cons, List.range'_succ, List.map_cons, ih]

theorem kind_of_mem_methodItems {owner : Text} {place : Nat} {commands : List Command} {item : Item}
    (h : item ∈ methodItems owner place commands) : item.kind = .method := by
  fun_induction methodItems owner place commands with
  | case1 => cases h
  | case2 place c rest hname ih => exact ih h
  | case3 place c rest member hname ih =>
    rcases List.mem_cons.1 h with rfl | h
    · rfl
    · exact ih h

theorem kind_of_mem_elementItems {owner : Text} {place : Nat} {members : List Enumeration.Member}
    {item : Item} (h : item ∈ elementItems owner place members) : item.kind = .enumMember := by
  induction members generalizing place with
  | nil => cases h
  | cons m rest ih =>
    rcases List.mem_cons.1 h with rfl | h
    · rfl
    · exact ih h

/-- The items have the given labels, and keys that count from zero and keep them in order. -/
structure Numbered (labels : List Text) (items : List Item) : Prop where
  /-- The labels. -/
  labels_eq : items.map (·.label) = labels
  /-- The keys. -/
  keys_eq : items.map (·.sortText) = (List.range items.length).map fun n => some (sortKey n)
  /-- The keys are in order. -/
  ascending : Ascending items

theorem numbered_of_keys {labels : List Text} {items : List Item}
    (hlabels : items.map (·.label) = labels)
    (hkeys : items.map (·.sortText) = (List.range' 0 items.length).map fun n => some (sortKey n))
    (hfew : items.length < 1000000) : Numbered labels items := by
  have horder : items.map Item.orderKey = (List.range' 0 items.length).map sortKey :=
    map_orderKey_of_map_sortText (by rw [hkeys, List.map_map]; rfl)
  refine ⟨hlabels, by rw [hkeys, List.range_eq_range'], ?_⟩
  rw [Ascending, ← List.pairwise_map (f := Item.orderKey) (R := (· < ·)), horder, List.pairwise_map]
  refine (List.pairwise_lt_range' 1).imp_of_mem fun hm hn hlt => sortKey_lt_sortKey hlt ?_
  have := List.mem_range'_1.1 hn
  omega

/-- The first item of a numbered list has the key of zero. -/
theorem Numbered.orderKey_head {labels : List Text} {item : Item} {items : List Item}
    (h : Numbered labels (item :: items)) : item.orderKey = sortKey 0 := by
  have hkeys := h.keys_eq
  rw [List.length_cons, List.range_succ_eq_map, List.map_cons, List.map_cons] at hkeys
  rw [Item.orderKey, (List.cons.inj hkeys).1, Option.getD_some]

theorem numbered_methodItems (owner : Text) {commands : List Command}
    (hfew : commands.length < 1000000) :
    Numbered (commands.filterMap (·.memberName)) (methodItems owner 0 commands) := by
  have hlabels := map_label_methodItems owner 0 commands
  refine numbered_of_keys hlabels (map_sortText_methodItems owner 0 commands) ?_
  have hlength := congrArg List.length hlabels
  rw [List.length_map] at hlength
  rw [hlength]
  exact (List.length_filterMap_le _ _).trans_lt hfew

theorem numbered_elementItems (owner : Text) {members : List Enumeration.Member}
    (hfew : members.length < 1000000) :
    Numbered (members.map (·.name)) (elementItems owner 0 members) := by
  have hlabels := map_label_elementItems owner 0 members
  refine numbered_of_keys hlabels (map_sortText_elementItems owner 0 members) ?_
  have hlength := congrArg List.length hlabels
  rw [List.length_map, List.length_map] at hlength
  rwa [hlength]

section TwoGroups

variable {labels labels' : List Text} {items items' : List Item}

/-- **Two numbered groups are in order only if one of them is empty**, since both start at zero. -/
theorem Numbered.ascending_append_iff (h : Numbered labels items) (h' : Numbered labels' items') :
    Ascending (items ++ items') ↔ items = [] ∨ items' = [] := by
  constructor
  · intro hascending
    cases items with
    | nil => exact .inl rfl
    | cons a items =>
      cases items' with
      | nil => exact .inr rfl
      | cons b items' =>
        have hlt := (List.pairwise_append.1 hascending).2.2 a List.mem_cons_self b
          List.mem_cons_self
        rw [h.orderKey_head, h'.orderKey_head] at hlt
        exact absurd hlt (lt_irrefl _)
  · rintro (rfl | rfl)
    · exact h'.ascending
    · rw [List.append_nil]
      exact h.ascending

/-- **Sorting leaves two numbered groups as they are only if one of them is empty.**  Otherwise the
first items of both have one key, and nothing keeps them in their order. -/
theorem Numbered.keptBySorting_append_iff (h : Numbered labels items)
    (h' : Numbered labels' items') (hapart : ∀ a ∈ items, ∀ b ∈ items', a ≠ b) :
    KeptBySorting (items ++ items') ↔ items = [] ∨ items' = [] := by
  constructor
  · intro hkept
    cases items with
    | nil => exact .inl rfl
    | cons a items =>
      cases items' with
      | nil => exact .inr rfl
      | cons b items' =>
        have hkey : a.orderKey = b.orderKey := h.orderKey_head.trans h'.orderKey_head.symm
        have hne : a ≠ b := hapart a List.mem_cons_self b List.mem_cons_self
        exact absurd hkept (not_keptBySorting hkey hne [] items items')
  · intro hempty
    exact ((h.ascending_append_iff h').2 hempty).keptBySorting

end TwoGroups

/-- After `owner.` on any line, the members of the owner are offered. -/
theorem atOffset_after_dot {cat : Catalogue} {before owner : Text} (after : Text)
    (hleft : ∀ c ∈ before.getLast?, Text.isWord c = false) (hne : owner ≠ [])
    (hword : ∀ c ∈ owner, Text.isWord c = true) :
    atOffset cat (typed before owner [] ++ after) (typed before owner []).byteLength =
      memberItems cat owner := by
  rw [atOffset, Text.lineHead_append, ownerBefore?_lastLine hleft hne hword]

/-- **The members of an owner stay in their order just if it does not have members of both kinds.**
After `owner.` there come the members of the class, in the order of the catalogue, and then those of
the enumeration, in the order of their declaration.  If there are less than a million of them, each
of the two groups has keys in order.  The keys of the whole list are in order, and editors that sort
by key leave the list as it is, exactly if one of the groups is empty. -/
theorem sort_keys_ascend_iff (cat : Catalogue) {before owner : Text} (after : Text)
    (hleft : ∀ c ∈ before.getLast?, Text.isWord c = false)
    (howner : owner ≠ [] ∧ ∀ c ∈ owner, Text.isWord c = true)
    (hfew : ((cat.classMembers? owner).getD []).length +
      (((cat.enum? owner).map (·.members)).getD []).length < 1000000) :
    ∃ methods elements : List Item,
      atOffset cat (typed before owner [] ++ after) (typed before owner []).byteLength =
        methods ++ elements ∧
      Numbered (((cat.classMembers? owner).getD []).filterMap (·.memberName)) methods ∧
      Numbered ((((cat.enum? owner).map (·.members)).getD []).map (·.name)) elements ∧
      (Ascending (methods ++ elements) ↔ methods = [] ∨ elements = []) ∧
      (KeptBySorting (methods ++ elements) ↔ methods = [] ∨ elements = []) := by
  have hmethods := numbered_methodItems owner (Nat.lt_of_le_of_lt (Nat.le_add_right _ _) hfew)
  have helements := numbered_elementItems owner (Nat.lt_of_le_of_lt (Nat.le_add_left _ _) hfew)
  refine ⟨_, _, atOffset_after_dot after hleft howner.1 howner.2, hmethods, helements,
    hmethods.ascending_append_iff helements, hmethods.keptBySorting_append_iff helements ?_⟩
  -- an item of the one group is of another kind than an item of the other
  rintro a ha _ hb rfl
  have hkind := (kind_of_mem_methodItems ha).symm.trans (kind_of_mem_elementItems hb)
  cases hkind

/-- A class with three members, which are not in the order of their names. -/
def alarmClock : Catalogue :=
  .ofCommands
    [{ id := "0001".toList, name := "wait".toList
       className := some "Clock".toList, memberName := some "Wait".toList },
     { id := "0002".toList, name := "set_time".toList
       className := some "Clock".toList, memberName := some "Set".toList },
     { id := "0003".toList, name := "ring".toList
       className := some "Clock".toList, memberName := some "Ring".toList }]

/-- The members of a class alone, in the middle of a line. -/
theorem clock_members_kept :
    (∀ c ∈ "0@ = ".toList.getLast?, Text.isWord c = false) ∧
    (∀ c ∈ "Clock".toList, Text.isWord c = true) ∧
    (atOffset alarmClock "0@ = Clock. // é".toList 11).map (·.label) =
      ["Wait".toList, "Set".toList, "Ring".toList] ∧
    KeptBySorting (atOffset alarmClock "0@ = Clock. // é".toList 11) := by
  have hleft : ∀ c ∈ "0@ = ".toList.getLast?, Text.isWord c = false := by
    rintro c ⟨⟩
    decide
  have hword : ∀ c ∈ "Clock".toList, Text.isWord c = true := List.all_eq_true.1 (by decide)
  obtain ⟨methods, elements, hitems, hmethods, helements, -, hkept⟩ :=
    sort_keys_ascend_iff alarmClock " // é".toList hleft ⟨by decide, hword⟩ (by decide)
  have htext : typed "0@ = ".toList "Clock".toList [] ++ " // é".toList =
      "0@ = Clock. // é".toList := by decide
  have hoffset : (typed "0@ = ".toList "Clock".toList []).byteLength = 11 := by decide
  have hempty : elements = [] := List.map_eq_nil_iff.1 helements.labels_eq
  rw [htext, hoffset] at hitems
  rw [← hitems] at hkept
  refine ⟨hleft, hword, ?_, hkept.2 (.inr hempty)⟩
  rw [hitems, hempty, List.append_nil, hmethods.labels_eq]
  decide +kernel

/-- **A class and an enumeration of one name: the keys do not increase.**  Both members have the key
of zero, so an editor may show them the other way round. -/
theorem shared_members_not_ascending :
    (∀ c ∈ "Clock".toList, Text.isWord c = true) ∧
    ((Highlight.sharedClock.classMembers? "Clock".toList).getD []).length +
      (((Highlight.sharedClock.enum? "Clock".toList).map (·.members)).getD []).length <
        1000000 ∧
    (atOffset Highlight.sharedClock "Clock.".toList 6).map (fun i => (i.kind, i.sortText)) =
      [(.method, some "000000".toList), (.enumMember, some "000000".toList)] ∧
    ¬ Ascending (atOffset Highlight.sharedClock "Clock.".toList 6) ∧
    ¬ KeptBySorting (atOffset Highlight.sharedClock "Clock.".toList 6) := by
  have hword : ∀ c ∈ "Clock".toList, Text.isWord c = true := List.all_eq_true.1 (by decide)
  have hitems : (atOffset Highlight.sharedClock "Clock.".toList 6).map
      (fun i => (i.kind, i.sortText)) =
        [(.method, some "000000".toList), (.enumMember, some "000000".toList)] := by
    decide +kernel
  refine ⟨hword, by decide, hitems, ?_⟩
  obtain ⟨a, items, hlist, ha, hrest⟩ := List.map_eq_cons_iff.1 hitems
  obtain ⟨b, items, rfl, hb, hnil⟩ := List.map_eq_cons_iff.1 hrest
  obtain rfl := List.map_eq_nil_iff.1 hnil
  have hkey : a.orderKey = b.orderKey := by
    rw [Item.orderKey, Item.orderKey, (Prod.mk.inj ha).2, (Prod.mk.inj hb).2]
    rfl
  have hne : a ≠ b := by
    rintro rfl
    cases (Prod.mk.inj ha).1.symm.trans (Prod.mk.inj hb).1
  rw [hlist]
  refine ⟨fun hascending => ?_, not_keptBySorting hkey hne [] [] []⟩
  exact absurd hkey ((List.pairwise_cons.1 hascending).1 b List.mem_cons_self).ne

end Completion

end OpcodeLens
