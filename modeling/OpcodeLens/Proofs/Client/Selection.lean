import OpcodeLens.Proofs.Client.Inquiry

/-!
# Blank selections

An answer of the editor that is empty counts as no answer, but an empty text in the settings is
taken as it stands: it is not asked for, and the selection has it.  So a selection is blank exactly
where the payload of the settings is.

* `Settings.given?` : what a payload gives for a setting, and `Settings.optionalText?_given?` : what
  becomes of it in the settings.
* `Inquiry.Learns.eq_nil_iff` : what an inquiry learns is empty only if the settings give it so.
* `Inquiry.blank_iff_given_blank` : the folder and the edition of a selection are empty exactly if
  the payload gives them as empty texts.
-/

namespace OpcodeLens

namespace Settings

/-- What a payload gives for a setting, which stands under its name in an object and at its place in
an array. -/
def given? (name : String) (place : Nat) (payload : Json) : Option Json :=
  match (wrapped? payload).getD payload with
  | .obj members => (Json.obj members).field? name
  | .arr items => items[place]?
  | _ => none

theorem optionalText?_eq_text_iff {value : Option Json} {text : Text} :
    optionalText? value = some (some text) ↔ value = some (.text text) := by
  cases value with
  | none => simp [optionalText?]
  | some value => cases value <;> simp [optionalText?, Json.asText?, Json.text]

theorem optionalText?_of_ofFields? {folder version timeout versions : Option Json} {s : Settings}
    (h : ofFields? folder version timeout versions = some s) :
    optionalText? folder = some s.folderPath ∧ optionalText? version = some s.gameVersion := by
  simp only [ofFields?, bind, Option.bind_eq_some_iff, Option.some.injEq] at h
  obtain ⟨folderPath, hfolder, gameVersion, hversion, ms, -, entries, -, rfl⟩ := h
  exact ⟨hfolder, hversion⟩

theorem ofJson?_eq (payload : Json) :
    ofJson? payload = ofPlain? ((wrapped? payload).getD payload) := by
  unfold ofJson?
  cases wrapped? payload <;> rfl

/-- The folder and the edition of accepted settings are the texts that the payload gives. -/
theorem optionalText?_given? {payload : Json} {s : Settings} (h : ofJson? payload = some s) :
    optionalText? (given? "folderPath" 0 payload) = some s.folderPath ∧
      optionalText? (given? "gameVersion" 1 payload) = some s.gameVersion := by
  rw [ofJson?_eq] at h
  unfold given?
  cases hbody : (wrapped? payload).getD payload with
  | null =>
    obtain rfl : {} = s := by simpa [hbody, ofPlain?] using h
    exact ⟨rfl, rfl⟩
  | obj members =>
    rw [hbody] at h
    exact optionalText?_of_ofFields? h
  | arr items =>
    rw [hbody, ofPlain?] at h
    split at h
    · exact optionalText?_of_ofFields? h
    · exact nomatch h
  | bool | num | str => simp [hbody, ofPlain?] at h

end Settings

namespace Inquiry

/-- An empty text is never learnt from the editor. -/
theorem Learns.eq_nil_iff {c : Setting} {given? : Option Text} {r : Request} {now t : Nat}
    {text : Text} (h : Learns c given? r now (.ok (some (text, t)))) :
    text = [] ↔ given? = some [] := by
  cases h with
  | given hg =>
    subst hg
    exact Option.some_inj.symm
  | told hg ha hne =>
    subst hg
    exact ⟨fun h => absurd h hne, fun h => nomatch h⟩

theorem exists_of_result_eq_some {c : Setting} {now : Nat} {selection : Selection}
    (h : (run c now).result = .ok (some selection)) :
    ∃ t u, Folder c now (.ok (some (selection.root, t))) ∧
      Edition c t (.ok (some (selection.version, u))) := by
  cases run_result_iff.1 h with
  | both hf he hfile => exact ⟨_, _, hf, he⟩

/-- A selection is blank exactly where the payload of the settings is: its folder or its edition is
empty just if the payload gives an empty text for it, whatever the editor answers. -/
theorem blank_iff_given_blank {payload : Json} {c : Setting} {now : Nat} {selection : Selection}
    (hpayload : Settings.ofJson? payload = some c.settings)
    (hresult : (run c now).result = .ok (some selection)) :
    (selection.root = [] ↔ Settings.given? "folderPath" 0 payload = some (.text [])) ∧
      (selection.version = [] ↔ Settings.given? "gameVersion" 1 payload = some (.text [])) := by
  obtain ⟨hfolder, hversion⟩ := Settings.optionalText?_given? hpayload
  obtain ⟨t, u, hf, he⟩ := exists_of_result_eq_some hresult
  rw [hf.eq_nil_iff, he.eq_nil_iff, ← Settings.optionalText?_eq_text_iff,
    ← Settings.optionalText?_eq_text_iff, hfolder, hversion, Option.some_inj, Option.some_inj]
  exact ⟨Iff.rfl, Iff.rfl⟩

/-- An inquiry under the given settings in an editor that has stored the folder `/vfs/sb`. -/
def withStored (settings : Settings) : Setting where
  settings := settings
  editor
    | .getStored _ => .answer (.string "/vfs/sb") 0
    | _ => .hang
  timeoutMs _ := 1000
  pauseMs _ := 0
  cancelAt := none

/-- An empty edition in the payload stays with the stored folder in one selection. -/
theorem blank_edition_selected :
    Settings.ofJson? (.object [("gameVersion", .string "")]) =
        some (withStored { gameVersion := some [] }).settings ∧
      ∃ selection, (run (withStored { gameVersion := some [] }) 0).result = .ok (some selection) ∧
        selection.root ≠ [] ∧ selection.version = [] := by
  have hpayload : Settings.ofJson? (.object [("gameVersion", .string "")]) =
      some (withStored { gameVersion := some [] }).settings := rfl
  have hfolder : Folder (withStored { gameVersion := some [] }) 0
      (.ok (some ("/vfs/sb".toList, 0))) :=
    .told rfl ⟨⟨0, rfl, rfl⟩, Nat.zero_le _, rfl, trivial⟩ (by decide)
  have hresult := run_result_iff.2
    (.both hfolder (.given rfl) (EditionTable.definitionsFile_merged_iff.1 rfl))
  obtain ⟨hroot, hversion⟩ := blank_iff_given_blank hpayload hresult
  exact ⟨hpayload, _, hresult, (fun h => nomatch hroot.1 h), hversion.2 rfl⟩

/-- An empty folder in the payload is selected although the editor has stored one. -/
theorem stored_folder_overridden :
    ∃ settings selection,
      Settings.ofJson? (.object [("folderPath", .string ""), ("gameVersion", .string "sa_sbl")]) =
          some settings ∧
        (run (withStored settings) 0).result = .ok (some selection) ∧ selection.root = [] :=
  ⟨{ folderPath := some [], gameVersion := some "sa_sbl".toList }, _, rfl,
    run_result_iff.2 (.both (.given rfl) (.given rfl)
      (EditionTable.definitionsFile_merged_iff.1 rfl)), rfl⟩

end Inquiry

end OpcodeLens
