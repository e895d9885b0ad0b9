import OpcodeLens.OrderedMap
import Mathlib.Data.List.FinRange
import Mathlib.Data.List.Induction
import Mathlib.Data.List.Perm.Basic
import Mathlib.Tactic.Common

/-!
# Maps that are filled one value at a time

Ordered maps are filled in loops, each round of which changes the value of one name.

* `OrderedMap.keys_alter`, `OrderedMap.get?_alter` : what one round does to the names and to the
  value of each name.
* `OrderedMap.collect` : the loop.  **Its names are the keys that came up, in the order of their
  first occurrence, and the value of a name depends on the values with that key alone**
  (`OrderedMap.keys_collect`, `OrderedMap.get?_collect`).
* `OrderedMap.group` : the loop that lists the values with each key, and `OrderedMap.ofList` : the
  loop in which the last value of each name wins.
* `OrderedMap.places` : where the values of a group stand in the list that was taken in.  **They are
  listed by the first place of their key, and for one key in their own order**
  (`OrderedMap.places_pairwise`); what is collected entry by entry comes in that order
  (`OrderedMap.flatMap_group`).
-/

namespace OpcodeLens

namespace OrderedMap

variable {α β : Type}

/-! ### One round -/

section Alter

variable (m : OrderedMap α) (key k : Text) (change : Option α → α)

theorem keys_alter :
    (m.alter key change).keys = if key ∈ m.keys then m.keys else m.keys ++ [key] := by
  obtain ⟨entries⟩ := m
  unfold keys alter
  dsimp only
  induction entries with
  | nil => rfl
  | cons entry entries ih =>
    obtain ⟨k, a⟩ := entry
    by_cases hk : k = key
    · simp [alterEntries, hk]
    · simp only [alterEntries, hk, if_false, List.map_cons, List.mem_cons, Ne.symm hk, false_or]
      rw [ih]
      split_ifs <;> rfl

theorem get?_alter :
    (m.alter key change).get? k = if k = key then some (change (m.get? key)) else m.get? k := by
  obtain ⟨entries⟩ := m
  unfold get? alter
  dsimp only
  induction entries with
  | nil => by_cases hk : key = k <;> simp [alterEntries, hk, eq_comm]
  | cons entry entries ih =>
    obtain ⟨l, a⟩ := entry
    by_cases hl : l = key
    · subst hl
      by_cases hk : k = l
      · simp [alterEntries, hk]
      · simp [alterEntries, hk, Ne.symm hk]
    · by_cases hk : l = k
      · subst hk
        simp [alterEntries, hl]
      · simp only [alterEntries, hl, if_false, List.find?_cons, hk, decide_false]
        exact ih

end Alter

/-! ### The loop -/

theorem eraseDups_concat (l : List Text) (k : Text) :
    (l ++ [k]).eraseDups = if k ∈ l then l.eraseDups else l.eraseDups ++ [k] := by
  rw [List.eraseDups_append]
  split_ifs with hk
  · simp [List.removeAll, hk]
  · simp [List.removeAll, hk, List.eraseDups_cons]

/-- The map after a list of values has been taken in: each value with a key changes what the map has
for that key, and values without a key are passed over. -/
def collect (key : α → Option Text) (change : α → Option β → β) (l : List α) : OrderedMap β :=
  l.foldl (fun m a => match key a with
    | some k => m.alter k (change a)
    | none => m) {}

section Collect

variable (key : α → Option Text) (change : α → Option β → β)

theorem collect_concat (l : List α) (a : α) :
    collect key change (l ++ [a]) = match key a with
      | some k => (collect key change l).alter k (change a)
      | none => collect key change l := by
  rw [collect, List.foldl_concat]
  rfl

/-- **The names are the keys that came up, in the order of their first occurrence.** -/
theorem keys_collect (l : List α) :
    (collect key change l).keys = (l.filterMap key).eraseDups := by
  induction l using List.reverseRecOn with
  | nil => rfl
  | append_singleton l a ih =>
    rw [collect_concat, List.filterMap_append]
    cases hk : key a with
    | none => simp [hk, ih]
    | some k =>
      simp only [List.filterMap_cons, hk, List.filterMap_nil]
      rw [keys_alter, ih, eraseDups_concat]
      simp only [List.mem_eraseDups]

/-- **The value of a name comes from the values with that key**, taken in one after the other. -/
theorem get?_collect (l : List α) (k : Text) :
    (collect key change l).get? k =
      (l.filter fun a => key a = some k).foldl (fun old a => some (change a old)) none := by
  induction l using List.reverseRecOn with
  | nil => rfl
  | append_singleton l a ih =>
    rw [collect_concat, List.filter_append]
    cases ha : key a with
    | none => simp [ha, ih]
    | some j =>
      dsimp only
      rw [get?_alter]
      by_cases hj : k = j
      · subst hj
        simp [ha, ih]
      · simp [ha, ih, hj, Ne.symm hj]

end Collect

/-! ### Lists of entries -/

/-- **The last value of a name wins**, and a name without one keeps its old value. -/
theorem get?_insertAll (m : OrderedMap α) (entries : List (Text × α)) (k : Text) :
    (m.insertAll entries).get? k =
      ((entries.filter fun entry => entry.1 = k).getLast?.map (·.2)).or (m.get? k) := by
  induction entries using List.reverseRecOn with
  | nil => rfl
  | append_singleton entries entry ih =>
    have hstep : (m.insertAll (entries ++ [entry])).get? k =
        if k = entry.1 then some entry.2 else (m.insertAll entries).get? k := by
      rw [insertAll, List.foldl_concat]
      exact get?_alter _ entry.1 k _
    rw [hstep, List.filter_append]
    by_cases hk : k = entry.1
    · simp [hk]
    · simp [hk, Ne.symm hk, ih]

theorem ofList_eq_collect (entries : List (Text × α)) :
    ofList entries = collect (fun entry => some entry.1) (fun entry _ => entry.2) entries := rfl

theorem keys_ofList (entries : List (Text × α)) :
    (ofList entries).keys = (entries.map (·.1)).eraseDups := by
  rw [ofList_eq_collect, keys_collect, List.filterMap_eq_map']

theorem get?_ofList (entries : List (Text × α)) (k : Text) :
    (ofList entries).get? k = (entries.filter fun entry => entry.1 = k).getLast?.map (·.2) := by
  rw [ofList, get?_insertAll]
  exact Option.or_none

/-! ### Groups -/

/-- The values with each key, in their order; values without a key are left out. -/
def group (key : α → Option Text) (l : List α) : OrderedMap (List α) :=
  collect key (fun a old => old.getD [] ++ [a]) l

section Group

variable (key : α → Option Text)

theorem foldl_concat_eq (l : List α) :
    l.foldl (fun old a => some (old.getD [] ++ [a])) none = if l = [] then none else some l := by
  induction l using List.reverseRecOn with
  | nil => rfl
  | append_singleton l a ih =>
    rw [List.foldl_concat, ih]
    by_cases hl : l = [] <;> simp [hl]

theorem keys_group (l : List α) : (group key l).keys = (l.filterMap key).eraseDups :=
  keys_collect key _ l

/-- **The value of a name is the list of all values with that key.**  It is never empty. -/
theorem get?_group_eq_some_iff {l g : List α} {k : Text} :
    (group key l).get? k = some g ↔ g ≠ [] ∧ g = l.filter fun a => key a = some k := by
  rw [group, get?_collect, foldl_concat_eq]
  split_ifs with hnil
  · rw [hnil]
    simp
  · simp only [Option.some.injEq]
    exact ⟨fun h => ⟨h ▸ hnil, h.symm⟩, fun h => h.2.symm⟩

theorem isEmpty_group_iff {l : List α} :
    (group key l).isEmpty = true ↔ ∀ a ∈ l, key a = none := by
  have hkeys : (group key l).isEmpty = true ↔ (group key l).keys = [] := by
    simp [isEmpty, keys]
  rw [hkeys, keys_group, List.eq_nil_iff_forall_not_mem]
  simp only [List.mem_eraseDups, ← List.eq_nil_iff_forall_not_mem, List.filterMap_eq_nil_iff]

theorem get?_group_getD (l : List α) (k : Text) :
    ((group key l).get? k).getD [] = l.filter fun a => key a = some k := by
  rw [group, get?_collect, foldl_concat_eq]
  split_ifs with hnil
  · rw [hnil]
    rfl
  · rfl

theorem group_concat (l : List α) (a : α) :
    group key (l ++ [a]) = match key a with
      | some k => (group key l).push k a
      | none => group key l :=
  collect_concat key _ l a

theorem values_push_perm (m : OrderedMap (List α)) (k : Text) (a : α) :
    (m.push k a).values.flatten.Perm (m.values.flatten ++ [a]) := by
  obtain ⟨entries⟩ := m
  unfold push values alter
  dsimp only
  induction entries with
  | nil => exact .refl _
  | cons entry entries ih =>
    simp only [alterEntries]
    split_ifs
    · simpa using ((List.perm_append_singleton a _).symm).append_left entry.2
    · simpa using ih.append_left entry.2

/-- **Every value with a key is listed once.** -/
theorem values_group_perm (l : List α) :
    (group key l).values.flatten.Perm (l.filter fun a => (key a).isSome) := by
  induction l using List.reverseRecOn with
  | nil => exact .nil
  | append_singleton l a ih =>
    rw [group_concat, List.filter_append]
    cases ha : key a with
    | none => simpa [ha] using ih
    | some k => simpa [ha] using (values_push_perm _ k a).trans (ih.append_right [a])

theorem push_mapEntries (f : β → α) (m : OrderedMap (List β)) (k : Text) (b : β) :
    (push ⟨mapEntries f m.entries⟩ k (f b)).entries = mapEntries f (m.push k b).entries := by
  obtain ⟨entries⟩ := m
  unfold push alter mapEntries
  dsimp only
  induction entries with
  | nil => simp [alterEntries]
  | cons entry entries ih =>
    simp only [List.map_cons, alterEntries]
    split_ifs
    · simp
    · rw [ih, List.map_cons]

/-- Grouping looks at keys only: it makes no difference whether values are replaced before or after
it. -/
theorem entries_group_map (f : β → α) (l : List β) :
    (group key (l.map f)).entries = mapEntries f (group (fun b => key (f b)) l).entries := by
  induction l using List.reverseRecOn with
  | nil => rfl
  | append_singleton l b ih =>
    rw [List.map_append, List.map_singleton, group_concat, group_concat]
    cases key (f b) with
    | none => exact ih
    | some k =>
      have hgroup : group key (l.map f) = ⟨mapEntries f (group (fun b => key (f b)) l).entries⟩ :=
        congrArg OrderedMap.mk ih
      dsimp only
      rw [hgroup, push_mapEntries]

theorem mapLists_group (f : β → α) (l : List β) :
    (group (fun b => key (f b)) l).mapLists f = group key (l.map f) :=
  congrArg OrderedMap.mk (entries_group_map key f l).symm

end Group

/-! ### Places -/

section Places

variable (key : α → Option Text) (l : List α)

/-- The keys that come up stand in the order of the places where they do so first. -/
theorem eraseDups_pairwise_findIdx : (l.filterMap key).eraseDups.Pairwise fun j k =>
    (l.findIdx fun a => key a = some j) < l.findIdx fun a => key a = some k := by
  induction l using List.reverseRecOn with
  | nil => exact .nil
  | append_singleton l a ih =>
    have hold : ∀ k ∈ (l.filterMap key).eraseDups,
        (l ++ [a]).findIdx (fun b => key b = some k) = l.findIdx (fun b => key b = some k) ∧
          l.findIdx (fun b => key b = some k) < l.length := by
      intro k hk
      have hlt : l.findIdx (fun b => key b = some k) < l.length := by
        obtain ⟨b, hb, hkey⟩ := List.mem_filterMap.1 (List.mem_eraseDups.1 hk)
        exact List.findIdx_lt_length.2 ⟨b, hb, decide_eq_true hkey⟩
      rw [List.findIdx_append, if_pos hlt]
      exact ⟨rfl, hlt⟩
    have hbefore : (l.filterMap key).eraseDups.Pairwise fun j k =>
        ((l ++ [a]).findIdx fun b => key b = some j) <
          (l ++ [a]).findIdx fun b => key b = some k := by
      refine ih.imp_of_mem fun hj hk hlt => ?_
      rwa [(hold _ hj).1, (hold _ hk).1]
    rw [List.filterMap_append]
    cases ha : key a with
    | none => simpa [ha] using hbefore
    | some k =>
      simp only [List.filterMap_cons, ha, List.filterMap_nil]
      rw [eraseDups_concat]
      split_ifs with hk
      · exact hbefore
      · refine List.pairwise_append.2 ⟨hbefore, List.pairwise_singleton _ _, fun j hj k' hk' => ?_⟩
        obtain rfl := List.mem_singleton.1 hk'
        -- the new key comes up at the last place
        have hnot : ¬ l.findIdx (fun b => key b = some k') < l.length := by
          rw [List.findIdx_lt_length]
          rintro ⟨b, hb, hkey⟩
          exact hk (List.mem_filterMap.2 ⟨b, hb, of_decide_eq_true hkey⟩)
        rw [(hold j hj).1, List.findIdx_append, if_neg hnot]
        have := (hold j hj).2
        omega

theorem nodup_keys_group : (group key l).keys.Nodup := by
  rw [keys_group]
  exact (eraseDups_pairwise_findIdx key l).imp fun hlt heq => by simp [heq] at hlt

theorem entries_eq_of_nodup {m : OrderedMap (List α)} (h : m.keys.Nodup) :
    m.entries = m.keys.map fun k => (k, (m.get? k).getD []) := by
  obtain ⟨entries⟩ := m
  unfold keys get? at *
  dsimp only at *
  induction entries with
  | nil => rfl
  | cons entry entries ih =>
    rw [List.map_cons, List.nodup_cons] at h
    have hrest : ∀ k ∈ entries.map (·.1), entry.1 ≠ k := fun k hk heq => h.1 (heq ▸ hk)
    rw [List.map_cons, List.map_cons, List.find?_cons]
    simp only [decide_true, Option.map_some, Option.getD_some]
    refine List.cons_eq_cons.2 ⟨rfl, ?_⟩
    nth_rewrite 1 [ih h.2]
    refine List.map_congr_left fun k hk => ?_
    rw [List.find?_cons, decide_eq_false (hrest k hk)]

/-- **The entries are the keys that came up, each with the values that have it.** -/
theorem entries_group : (group key l).entries =
    (l.filterMap key).eraseDups.map fun k => (k, l.filter fun a => key a = some k) := by
  rw [entries_eq_of_nodup (nodup_keys_group key l), keys_group]
  exact List.map_congr_left fun k _ => by rw [get?_group_getD]

theorem filter_eq_map_get (p : α → Bool) :
    l.filter p = ((List.finRange l.length).filter fun i => p (l.get i)).map l.get := by
  nth_rewrite 1 [← List.map_get_finRange l]
  rw [List.filter_map]
  rfl

/-- The places of the values with a key, in the order in which their groups list them. -/
def places : List (Fin l.length) :=
  (l.filterMap key).eraseDups.flatMap fun k =>
    (List.finRange l.length).filter fun i => key (l.get i) = some k

/-- Places by the first place with the same key and, for one key, by their own order. -/
def Precedes (i j : Fin l.length) : Prop :=
  (l.findIdx fun a => key a = key (l.get i)) < (l.findIdx fun a => key a = key (l.get j)) ∨
    (l.findIdx fun a => key a = key (l.get i)) = (l.findIdx fun a => key a = key (l.get j)) ∧ i < j

theorem mem_places {i : Fin l.length} : i ∈ places key l ↔ (key (l.get i)).isSome := by
  simp only [places, List.mem_flatMap, List.mem_filter, List.mem_finRange, true_and,
    decide_eq_true_eq, List.mem_eraseDups, List.mem_filterMap, Option.isSome_iff_exists]
  constructor
  · rintro ⟨k, -, hk⟩
    exact ⟨k, hk⟩
  · rintro ⟨k, hk⟩
    exact ⟨k, ⟨l.get i, List.get_mem l i, hk⟩, hk⟩

/-- **Groups are listed by the first place of their key**, and within them values by their own
places. -/
theorem places_pairwise : (places key l).Pairwise (Precedes key l) := by
  rw [places, List.pairwise_flatMap]
  constructor
  · intro k _
    refine ((List.pairwise_lt_finRange _).filter _).imp_of_mem fun hi hj hlt => ?_
    refine .inr ⟨?_, hlt⟩
    rw [of_decide_eq_true (List.mem_filter.1 hi).2, of_decide_eq_true (List.mem_filter.1 hj).2]
  · refine (eraseDups_pairwise_findIdx key l).imp fun {j k} hlt a ha b hb => .inl ?_
    rw [of_decide_eq_true (List.mem_filter.1 ha).2, of_decide_eq_true (List.mem_filter.1 hb).2]
    exact hlt

/-- **What is collected entry by entry comes in the order of the places**, if what an entry gives
can be told from its values one by one. -/
theorem flatMap_group {f : Text × List α → List β} {p : α → Bool} {g : α → β}
    (hf : ∀ k as, (∀ a ∈ as, key a = some k) → f (k, as) = (as.filter p).map g) :
    (group key l).entries.flatMap f =
      ((places key l).filter fun i => p (l.get i)).map fun i => g (l.get i) := by
  have hgroup : ∀ k, f (k, l.filter fun a => key a = some k) =
      (((List.finRange l.length).filter fun i => key (l.get i) = some k).filter
        fun i => p (l.get i)).map fun i => g (l.get i) := by
    intro k
    rw [hf k _ fun a ha => of_decide_eq_true (List.mem_filter.1 ha).2,
      filter_eq_map_get l, List.filter_map, List.map_map]
    rfl
  rw [entries_group, List.flatMap_map, places, List.filter_flatMap, List.map_flatMap]
  exact List.flatMap_congr fun k _ => hgroup k

end Places

end OrderedMap

end OpcodeLens
