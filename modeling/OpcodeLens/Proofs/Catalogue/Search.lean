import OpcodeLens.Proofs.Catalogue.Grouping
import Mathlib.Data.List.Nodup

/-!
# Searching finds what it should

A search walks over the two views of the catalogue, group by group.  Told in terms of the definition
document, it lists every entry with a fitting name once and every class member with a fitting
`class.member` once, and nothing else.

* `Text.contains_iff_infix` : what it is for a text to contain another one.
* `Catalogue.Lists` : hits that stand for the entries with a property, each of them once, in the
  order of the groups.
* `Catalogue.lists_nameHits`, `Catalogue.lists_memberHits` : the two halves of a search.
* `Catalogue.search_lists_exactly` : **a search lists what fits, in order.**
-/

namespace OpcodeLens

/-- **A text contains another one if that one is a stretch of it.** -/
theorem Text.contains_iff_infix {part text : Text} :
    Text.contains part text = true ↔ part <:+: text := by
  induction text with
  | nil => simp [Text.contains]
  | cons c rest ih =>
    rw [Text.contains, Bool.or_eq_true, List.isPrefixOf_iff_prefix, ih, List.infix_cons_iff]

/-- The name `class.member` of an entry. -/
def Definition.Entry.memberLabel (e : Entry) : Text :=
  e.className.getD [] ++ '.' :: e.memberName.getD []

/-- An entry that is listed under a class has the name that its command has there. -/
theorem Definition.Entry.memberLabel_command {e : Entry} {owner : Text}
    (h : e.owner? = some owner) : Catalogue.memberLabel owner e.command = e.memberLabel := by
  have howner : e.className = some owner := by
    unfold owner? at h
    split at h
    · next hc _ =>
      split_ifs at h
      rw [hc, ← h]
    · cases h
  rw [Catalogue.memberLabel, memberName_command h, memberLabel, howner, Option.getD_some]

namespace Catalogue

open Definition

/-- The hit for an entry that is found by its name. -/
def Hit.byName (e : Entry) : Hit := ⟨Text.lower e.name, .opcode, e.command⟩

/-- The hit for an entry that is found by its class and member. -/
def Hit.byMember (e : Entry) : Hit := ⟨e.memberLabel, .classMember, e.command⟩

/-- The hits are those for the entries that are `found`: each of them stands there once, by the
first place of its key, and for one key in the order of the entries. -/
def Lists (entries : List Entry) (key : Entry → Option Text) (found : Entry → Prop)
    (hit : Entry → Hit) (hits : List Hit) : Prop :=
  ∃ places : List (Fin entries.length), places.Nodup ∧
    (∀ i, i ∈ places ↔ found (entries.get i)) ∧
    places.Pairwise (OrderedMap.Precedes key entries) ∧
    hits = places.map fun i => hit (entries.get i)

section Lists

variable {entries : List Entry} {key : Entry → Option Text} {found : Entry → Prop}
  {hit : Entry → Hit} {hits : List Hit}

/-- No place comes before itself, so an ordered list has each place once. -/
theorem nodup_of_precedes {places : List (Fin entries.length)}
    (h : places.Pairwise (OrderedMap.Precedes key entries)) : places.Nodup := by
  refine h.imp ?_
  rintro i _ (hlt | ⟨-, hlt⟩) rfl
  · exact Nat.lt_irrefl _ hlt
  · exact Fin.lt_irrefl i hlt

/-- What is collected group by group lists the entries that pass a test. -/
theorem lists_flatMap_group {f : Text × List Command → List Hit} {p : Entry → Bool}
    (hfound : ∀ e, found e ↔ (key e).isSome = true ∧ p e = true)
    (hf : ∀ k (es : List Entry), (∀ e ∈ es, key e = some k) →
      f (k, es.map Entry.command) = (es.filter p).map hit) :
    Lists entries key found hit
      ((OrderedMap.mapEntries Entry.command (OrderedMap.group key entries).entries).flatMap f) := by
  have hordered : ((OrderedMap.places key entries).filter fun i => p (entries.get i)).Pairwise
      (OrderedMap.Precedes key entries) :=
    (OrderedMap.places_pairwise key entries).filter _
  refine ⟨_, nodup_of_precedes hordered, fun i => ?_, hordered, ?_⟩
  · rw [List.mem_filter, OrderedMap.mem_places, hfound]
  · rw [OrderedMap.mapEntries, List.flatMap_map]
    exact OrderedMap.flatMap_group key entries hf

/-- There are as many hits as entries that are found. -/
theorem Lists.length_eq (h : Lists entries key found hit hits) {p : Entry → Bool}
    (hp : ∀ e, found e ↔ p e = true) : hits.length = (entries.filter p).length := by
  obtain ⟨places, hnodup, hmem, -, rfl⟩ := h
  have hperm : places.Perm ((List.finRange entries.length).filter fun i => p (entries.get i)) := by
    refine (List.perm_ext_iff_of_nodup hnodup ((List.nodup_finRange _).filter _)).2 fun i => ?_
    rw [hmem, hp, List.mem_filter]
    simp
  rw [List.length_map, hperm.length_eq, OrderedMap.filter_eq_map_get entries, List.length_map]

end Lists

variable (document : Document) (enums : Option (OrderedMap Enumeration)) (query : Text)

/-! ### The two halves -/

theorem entries_byName_build : (build (some document) enums).byName.entries =
    OrderedMap.mapEntries Entry.command
      (OrderedMap.group (fun e => some (Text.lower e.name)) document.entries).entries := by
  rw [build_byName, commandsOf, OrderedMap.entries_group_map]
  rfl

theorem entries_byClass_build : (build (some document) enums).byClass.entries =
    OrderedMap.mapEntries Entry.command
      (OrderedMap.group Entry.owner? document.entries).entries := by
  rw [build_byClass, commandsOf, OrderedMap.entries_group_map]
  simp only [Entry.owner?_command]

/-- **By name, the entries with a fitting name are found.** -/
theorem lists_nameHits :
    Lists document.entries (fun e => some (Text.lower e.name))
      (fun e => query <:+: Text.lower e.name) Hit.byName
      ((build (some document) enums).nameHits query) := by
  rw [nameHits, entries_byName_build]
  refine lists_flatMap_group (p := fun e => Text.contains query (Text.lower e.name)) ?_ ?_
  · intro e
    rw [Text.contains_iff_infix]
    simp
  · intro name es hname
    have hlower : ∀ e ∈ es, Text.lower e.name = name := fun e he => Option.some.inj (hname e he)
    have hhit : (es.map Entry.command).map (fun c => (⟨name, .opcode, c⟩ : Hit)) =
        es.map Hit.byName := by
      rw [List.map_map]
      exact List.map_congr_left fun e he => by rw [Hit.byName, hlower e he]; rfl
    dsimp only
    -- the test looks at the name of the group only
    split_ifs with hfits
    · rw [hhit, List.filter_eq_self.2 fun e he => by rw [hlower e he, hfits]]
    · rw [List.filter_eq_nil_iff.2 fun e he => by rwa [hlower e he], List.map_nil]

/-- **By class and member, the class members with a fitting name are found.** -/
theorem lists_memberHits :
    Lists document.entries Entry.owner?
      (fun e => e.owner?.isSome = true ∧ query <:+: Text.lower e.memberLabel) Hit.byMember
      ((build (some document) enums).memberHits query) := by
  rw [memberHits, entries_byClass_build]
  refine lists_flatMap_group (p := fun e => Text.contains query (Text.lower e.memberLabel)) ?_ ?_
  · intro e
    rw [Text.contains_iff_infix]
  · intro owner es howner
    have hlabel : ∀ e ∈ es, memberLabel owner e.command = e.memberLabel :=
      fun e he => Entry.memberLabel_command (howner e he)
    have hfilter : (es.filter fun e =>
          Text.contains query (Text.lower (memberLabel owner e.command))) =
        es.filter fun e => Text.contains query (Text.lower e.memberLabel) :=
      List.filter_congr fun e he => by rw [hlabel e he]
    dsimp only
    rw [List.filter_map, List.map_map]
    simp only [Function.comp_def]
    rw [hfilter]
    refine List.map_congr_left fun e he => ?_
    rw [hlabel e (List.mem_of_mem_filter he), Hit.byMember]

/-! ### Searching -/

theorem commandCount_build :
    (build (some document) enums).commandCount = document.entries.length := by
  rw [commandCount, build_byName, (OrderedMap.values_group_perm _ _).length_eq]
  simp [commandsOf]

/-- **A search lists what fits, in order.**  First come the entries whose name has the query in it,
each of them once, by the first occurrence of their name and then in the order of the document; then
the class members whose `class.member` has the query in it, each of them once, by the first
occurrence of their class and then in the order of the document.  Names are compared in lower case.
So the empty query lists every command, and every class member once more. -/
theorem search_lists_exactly :
    (∃ named members, (build (some document) enums).search query = named ++ members ∧
      Lists document.entries (fun e => some (Text.lower e.name))
        (fun e => Text.lower query <:+: Text.lower e.name) Hit.byName named ∧
      Lists document.entries Entry.owner?
        (fun e => e.owner?.isSome = true ∧ Text.lower query <:+: Text.lower e.memberLabel)
        Hit.byMember members) ∧
    ((build (some document) enums).search []).length =
      (build (some document) enums).commandCount +
        (document.entries.filter fun e => e.owner?.isSome).length := by
  refine ⟨⟨_, _, rfl, lists_nameHits document enums _, lists_memberHits document enums _⟩, ?_⟩
  have hnames := (lists_nameHits document enums []).length_eq (p := fun _ => true) (by simp)
  have hmembers := (lists_memberHits document enums []).length_eq
    (p := fun e => e.owner?.isSome) (by simp)
  rw [commandCount_build, search, List.length_append]
  rw [List.filter_true] at hnames
  exact congrArg₂ (· + ·) hnames hmembers

end Catalogue

end OpcodeLens
