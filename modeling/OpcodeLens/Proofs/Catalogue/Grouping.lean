import OpcodeLens.Catalogue.Basic
import OpcodeLens.Proofs.OrderedMap

/-!
# The catalogue follows the document

A catalogue is filled in one pass over the definition document.  Both of its views turn out to be
groupings of the same list of commands, each by its own key, so that looking something up in a view
is the same as going through the document from the start.

* `Catalogue.Pass.run_byName`, `Catalogue.Pass.run_byClass` : what the pass lists, with places.
* `Catalogue.Pass.run_repeated` : the commands with an identifier that is already taken.
* `Catalogue.ofCommands_byName`, `Catalogue.ofCommands_byClass` : the two views as groupings.
* `Catalogue.Follows` : what a catalogue takes from a document, and `Catalogue.follows_build` : the
  catalogue of a document does take it.
* `Catalogue.groups_in_document_order` : **the catalogue follows its document**, and its lookups
  find the first command of the document that fits.
-/

namespace OpcodeLens

/-- The class under which an entry is listed: the entry must have a class and a name in it, and
neither may be empty. -/
def Definition.Entry.owner? (e : Entry) : Option Text :=
  match e.className, e.memberName with
  | some owner, some member => if owner ≠ [] ∧ member ≠ [] then some owner else none
  | _, _ => none

/-- The class under which a command is listed. -/
def Command.owner? (c : Command) : Option Text := c.classMember?.map (·.1)

theorem Command.owner?_isSome (c : Command) : c.owner?.isSome = c.classMember?.isSome := by
  rw [owner?, Option.isSome_map]

theorem Definition.Entry.owner?_ne_nil (e : Entry) : e.owner? ≠ some [] := by
  unfold owner?
  split
  · split_ifs with h <;> simp [h]
  · simp

theorem Definition.Entry.owner?_command (e : Entry) : e.command.owner? = e.owner? := by
  unfold Command.owner? Command.classMember? command owner?
  rcases hc : e.className with - | owner
  · rfl
  · rcases hm : e.memberName with - | member
    · cases owner <;> rfl
    · cases owner <;> cases member <;> rfl

/-- An entry that is listed under a class keeps its name in it. -/
theorem Definition.Entry.memberName_command {e : Entry} {owner : Text}
    (h : e.owner? = some owner) : e.command.memberName = e.memberName := by
  unfold owner? at h
  split at h
  · next member _ hm =>
    split_ifs at h with hne
    simp [command, hm, hne.2]
  · cases h

namespace Catalogue

open Definition

variable (document : Document)

/-! ### The pass over the commands -/

section Listed

variable (commands : List Command) (c : Command)

theorem listed_concat : listed (commands ++ [c]) = listed commands ++ [⟨c, commands.length⟩] := by
  simp [listed, List.zipIdx_append]

theorem map_command_listed : (listed commands).map (·.command) = commands := by
  rw [listed, List.map_map]
  exact List.zipIdx_map_fst 0 commands

theorem listed_commandsOf :
    listed (commandsOf document) = document.entries.zipIdx.map fun e => ⟨e.1.command, e.2⟩ := by
  rw [listed, commandsOf, List.zipIdx_map, List.map_map]
  rfl

namespace Pass

theorem run_concat : run (commands ++ [c]) = (run commands).add ⟨c, commands.length⟩ := by
  rw [run, listed_concat, List.foldl_concat]
  rfl

theorem run_byName :
    (run commands).byName = .group (fun l => some l.command.name) (listed commands) := by
  induction commands using List.reverseRecOn with
  | nil => rfl
  | append_singleton commands c ih =>
    rw [run_concat, listed_concat, OrderedMap.group_concat, ← ih]
    rfl

theorem run_byClass :
    (run commands).byClass = .group (fun l => l.command.owner?) (listed commands) := by
  induction commands using List.reverseRecOn with
  | nil => rfl
  | append_singleton commands c ih =>
    rw [run_concat, listed_concat, OrderedMap.group_concat, ← ih]
    unfold add Command.owner?
    cases c.classMember? <;> rfl

variable {commands}

theorem mem_seen_run {id : Text} : id ∈ (run commands).seen ↔ ∃ d ∈ commands, d.id = id := by
  induction commands using List.reverseRecOn with
  | nil => simp [run, listed]
  | append_singleton commands c ih =>
    have hadd : id ∈ ((run commands).add ⟨c, commands.length⟩).seen ↔
        id ∈ (run commands).seen ∨ c.id = id := by
      unfold add
      dsimp only
      split_ifs with htaken
      · have hmem : c.id ∈ (run commands).seen := by simpa using htaken
        exact (or_iff_left_of_imp fun hid => hid ▸ hmem).symm
      · rw [List.mem_cons, or_comm, eq_comm]
    rw [run_concat, hadd, ih]
    simp [or_and_right, exists_or]

/-- **The commands to warn about are those that have the identifier of an earlier one.** -/
theorem run_repeated : (run commands).repeated =
    (listed commands).filter fun l => (commands.take l.place).any fun d => d.id = l.command.id := by
  induction commands using List.reverseRecOn with
  | nil => rfl
  | append_singleton commands c ih =>
    have hbefore : (listed commands).filter (fun l =>
          ((commands ++ [c]).take l.place).any fun d => d.id = l.command.id) =
        (run commands).repeated := by
      rw [ih]
      refine List.filter_congr fun l hl => ?_
      obtain ⟨place, hplace, rfl⟩ := List.mem_map.1 hl
      have hle : place.2 ≤ commands.length := by
        have hlt := (List.mem_zipIdx hplace).2.1
        omega
      rw [List.take_append_of_le_length hle]
    have htaken : (commands.any fun d => d.id = c.id) = (run commands).seen.elem c.id := by
      rw [Bool.eq_iff_iff]
      simp [mem_seen_run]
    rw [run_concat, listed_concat, List.filter_append, hbefore, List.filter_singleton]
    simp only [List.take_left, htaken]
    unfold add
    dsimp only
    cases (run commands).seen.elem c.id <;> simp

end Pass

theorem ofCommands_byName :
    (ofCommands commands).byName = .group (fun c => some c.name) commands := by
  have hlists := OrderedMap.mapLists_group (fun c : Command => some c.name) Listed.command
    (listed commands)
  rw [ofCommands, Pass.run_byName, hlists, map_command_listed]

theorem ofCommands_byClass : (ofCommands commands).byClass = .group Command.owner? commands := by
  have hlists := OrderedMap.mapLists_group Command.owner? Listed.command (listed commands)
  rw [ofCommands, Pass.run_byClass, hlists, map_command_listed]

end Listed

variable (enums : Option (OrderedMap Enumeration))

theorem build_byName :
    (build (some document) enums).byName = .group (fun c => some c.name) (commandsOf document) :=
  ofCommands_byName (commandsOf document)

theorem build_byClass :
    (build (some document) enums).byClass = .group Command.owner? (commandsOf document) :=
  ofCommands_byClass (commandsOf document)

/-! ### What is taken from the document -/

/-- The catalogue lists the commands of the document by their names and by their classes. -/
structure Follows (cat : Catalogue) (document : Document) : Prop where
  /-- The names come in the order of their first occurrence, in lower case. -/
  names : cat.byName.keys = (document.entries.map fun e => Text.lower e.name).eraseDups
  /-- Under a name there are the commands with that name, in the order of the document. -/
  byName : ∀ name commands, cat.byName.get? name = some commands ↔ commands ≠ [] ∧
    commands = (document.entries.filter fun e => Text.lower e.name = name).map Entry.command
  /-- The classes come in the order of their first occurrence. -/
  classes : cat.byClass.keys = (document.entries.filterMap Entry.owner?).eraseDups
  /-- Under a class there are its members, in the order of the document. -/
  byClass : ∀ owner commands, cat.byClass.get? owner = some commands ↔ commands ≠ [] ∧
    commands = (document.entries.filter fun e => e.owner? = some owner).map Entry.command
  /-- No class is without a name. -/
  named : [] ∉ cat.byClass.keys
  /-- The catalogue lists what the pass over the document lists, without the places. -/
  views : cat.byName = (Pass.run (commandsOf document)).byName.mapLists (·.command) ∧
    cat.byClass = (Pass.run (commandsOf document)).byClass.mapLists (·.command)
  /-- By their names, the pass lists each command of the document once, in its place. -/
  once : (Pass.run (commandsOf document)).byName.values.flatten.Perm
    (document.entries.zipIdx.map fun e => ⟨e.1.command, e.2⟩)
  /-- By their classes, it lists just those of them again that are class members: the same commands
  in the same places. -/
  shared : (Pass.run (commandsOf document)).byClass.values.flatten.Perm
    ((Pass.run (commandsOf document)).byName.values.flatten.filter fun l =>
      l.command.classMember?.isSome)

theorem filterMap_owner?_commandsOf :
    (commandsOf document).filterMap Command.owner? = document.entries.filterMap Entry.owner? := by
  rw [commandsOf, List.filterMap_map]
  exact List.filterMap_congr fun e _ => e.owner?_command

theorem filter_owner?_commandsOf (owner : Text) :
    ((commandsOf document).filter fun c => c.owner? = some owner) =
      (document.entries.filter fun e => e.owner? = some owner).map Entry.command := by
  rw [commandsOf, List.filter_map]
  simp only [Function.comp_def, Entry.owner?_command]

theorem filter_name_commandsOf (name : Text) :
    ((commandsOf document).filter fun c => some c.name = some name) =
      (document.entries.filter fun e => Text.lower e.name = name).map Entry.command := by
  rw [commandsOf, List.filter_map]
  congr 1
  exact List.filter_congr fun e _ => decide_eq_decide.2 (by simp [Entry.command])

theorem values_run_byName_perm (commands : List Command) :
    (Pass.run commands).byName.values.flatten.Perm (listed commands) := by
  rw [Pass.run_byName]
  simpa using OrderedMap.values_group_perm (fun l : Listed => some l.command.name) (listed commands)

/-- **The catalogue of a document follows it.** -/
theorem follows_build : (build (some document) enums).Follows document where
  names := by
    rw [build_byName, OrderedMap.keys_group, List.filterMap_eq_map', commandsOf, List.map_map]
    rfl
  byName := by
    intro name commands
    rw [build_byName, OrderedMap.get?_group_eq_some_iff, filter_name_commandsOf]
  classes := by
    rw [build_byClass, OrderedMap.keys_group, filterMap_owner?_commandsOf]
  byClass := by
    intro owner commands
    rw [build_byClass, OrderedMap.get?_group_eq_some_iff, filter_owner?_commandsOf]
  named := by
    rw [build_byClass, OrderedMap.keys_group, filterMap_owner?_commandsOf, List.mem_eraseDups,
      List.mem_filterMap]
    rintro ⟨e, -, he⟩
    exact e.owner?_ne_nil he
  views := ⟨rfl, rfl⟩
  once := by
    rw [← listed_commandsOf]
    exact values_run_byName_perm (commandsOf document)
  shared := by
    rw [Pass.run_byClass]
    refine (OrderedMap.values_group_perm _ _).trans ?_
    simp only [Command.owner?_isSome]
    exact ((values_run_byName_perm (commandsOf document)).filter _).symm

/-- **The commands to warn about, as entries of the document.** -/
theorem run_repeated_commandsOf :
    (Pass.run (commandsOf document)).repeated =
      (document.entries.zipIdx.filter fun e =>
        (document.entries.take e.2).any fun d => d.id = e.1.id).map
          fun e => ⟨e.1.command, e.2⟩ := by
  rw [Pass.run_repeated, listed_commandsOf, List.filter_map]
  congr 1
  refine List.filter_congr fun e _ => ?_
  rw [Function.comp_apply, commandsOf, ← List.map_take, List.any_map]
  rfl

/-! ### Lookups -/

theorem get?_byName_getD (name : Text) :
    ((build (some document) enums).byName.get? name).getD [] =
      (document.entries.filter fun e => Text.lower e.name = name).map Entry.command := by
  rw [build_byName, OrderedMap.get?_group_getD, filter_name_commandsOf]

theorem get?_byClass_getD (owner : Text) :
    ((build (some document) enums).byClass.get? owner).getD [] =
      (document.entries.filter fun e => e.owner? = some owner).map Entry.command := by
  rw [build_byClass, OrderedMap.get?_group_getD, filter_owner?_commandsOf]

theorem opcode?_build (name : Text) :
    (build (some document) enums).opcode? name =
      (document.entries.find? fun e => Text.lower e.name = Text.lower name).map
        Entry.command := by
  have hhead : (build (some document) enums).opcode? name =
      (((build (some document) enums).byName.get? (Text.lower name)).getD []).head? := by
    unfold opcode?
    cases (build (some document) enums).byName.get? (Text.lower name) <;> rfl
  rw [hhead, get?_byName_getD, List.head?_map, List.head?_filter]

theorem classMember?_build (owner member : Text) :
    (build (some document) enums).classMember? owner member =
      (document.entries.find? fun e => e.owner? = some owner ∧ e.memberName = some member).map
        Entry.command := by
  have hfind : (build (some document) enums).classMember? owner member =
      (((build (some document) enums).byClass.get? owner).getD []).find?
        fun c => c.memberName = some member := by
    unfold classMember? classMembers?
    cases (build (some document) enums).byClass.get? owner <;> rfl
  rw [hfind, get?_byClass_getD, List.find?_map, List.find?_filter]
  congr 2
  funext e
  rw [Bool.eq_iff_iff]
  simp only [Function.comp_apply, decide_eq_true_iff, and_congr_right_iff]
  exact fun ho => by rw [Entry.memberName_command ho]

/-- A catalogue without names has no classes either. -/
theorem isEmpty_build : (build (some document) enums).isEmpty =
    ((build (some document) enums).byName.isEmpty &&
      (build (some document) enums).byClass.isEmpty &&
      (build (some document) enums).enums.isEmpty) := by
  have hclass : (build (some document) enums).byName.isEmpty = true →
      (build (some document) enums).byClass.isEmpty = true := by
    rw [build_byName, build_byClass, OrderedMap.isEmpty_group_iff, OrderedMap.isEmpty_group_iff]
    exact fun h c hc => absurd (h c hc) (Option.some_ne_none _)
  rw [isEmpty]
  cases hname : (build (some document) enums).byName.isEmpty with
  | false => rfl
  | true => simp [hclass hname]

/-- **The catalogue follows its document.**  Its views list the commands by name and by class in
the order of the document; the commands that are reported for their identifiers are those after the
first one with the identifier; a lookup by name, in any case, or by class and member finds the first
command of the document that fits; and a catalogue is empty only if both views are. -/
theorem groups_in_document_order :
    (build (some document) enums).Follows document ∧
    (Pass.run (commandsOf document)).repeated =
      (document.entries.zipIdx.filter fun e =>
        (document.entries.take e.2).any fun d => d.id = e.1.id).map
          (fun e => ⟨e.1.command, e.2⟩) ∧
    (∀ name, (build (some document) enums).opcode? name =
      (document.entries.find? fun e => Text.lower e.name = Text.lower name).map Entry.command) ∧
    (∀ owner member, (build (some document) enums).classMember? owner member =
      (document.entries.find? fun e => e.owner? = some owner ∧ e.memberName = some member).map
        Entry.command) ∧
    (build (some document) enums).isEmpty =
      ((build (some document) enums).byName.isEmpty &&
        (build (some document) enums).byClass.isEmpty &&
        (build (some document) enums).enums.isEmpty) :=
  ⟨follows_build document enums, run_repeated_commandsOf document,
    opcode?_build document enums, classMember?_build document enums, isEmpty_build document enums⟩

end Catalogue

end OpcodeLens
