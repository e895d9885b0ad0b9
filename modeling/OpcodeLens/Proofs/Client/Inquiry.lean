import OpcodeLens.Client.Inquiry
import OpcodeLens.Proofs.OrderedMap
import Mathlib.Data.Option.Basic

/-!
# What an inquiry asks and what it finds out

A request that is sent to the editor is a race of three: the cancellation, the editor's reply and
the end of the waiting time.  Of those that come at one time the cancellation counts first and the
end of the waiting time last.

* `Inquiry.Answered`, `Inquiry.Fails` : how the race ends, said without running it.  One of the
  two holds of every request (`Inquiry.answered_or_fails`), and each says what
  `Inquiry.Setting.outcome` is.
* `Inquiry.Learns` : what becomes of one of the two things to find out, the folder and the edition.
  What the settings give is not asked for.
* `EditionTable.FileOf` : which definition file belongs to an edition, and
  `EditionTable.definitionsFile_merged_iff` : the table of the settings says so.
* `Inquiry.Finds` : what an inquiry finds out, and `Inquiry.run_result_iff` : it is what the run
  returns.
* `Inquiry.asks_exactly_what_is_missing` : which requests a run sends and when, and its result.
-/

namespace OpcodeLens

/-! ### Requests -/

/-- The values that a request takes as its answer. -/
def Request.Takes (value : Json) : Request → Prop
  | .version => value = .null ∨ ∃ t, value = .str t
  | .getStored _ => True
  | .setStored _ _ => value = .null

theorem Request.accept_of_takes {r : Request} {value : Json} (h : r.Takes value) :
    r.accept value = .ok value := by
  cases r with
  | version =>
    obtain rfl | ⟨t, rfl⟩ := h
    · rfl
    · rfl
  | getStored key => rfl
  | setStored key stored =>
    obtain rfl : value = .null := h
    rfl

theorem Request.exists_accept_eq_error {r : Request} {value : Json} (h : ¬ r.Takes value) :
    ∃ words, r.accept value = .error words := by
  cases r with
  | version =>
    cases value with
    | null => exact absurd (.inl rfl) h
    | str t => exact absurd (.inr ⟨t, rfl⟩) h
    | bool | num | arr | obj => exact ⟨_, rfl⟩
  | getStored key => exact absurd trivial h
  | setStored key stored =>
    cases value with
    | null => exact absurd rfl h
    | str | bool | num | arr | obj => exact ⟨_, rfl⟩

theorem cancelledBy_iff {cancelAt : Option Nat} {time : Nat} :
    cancelledBy cancelAt time = true ↔ ∃ t, cancelAt = some t ∧ t ≤ time := by
  cases cancelAt <;> simp [cancelledBy]

/-- What is not cancelled has not been cancelled before. -/
theorem live_of_le {cancelAt : Option Nat} {s t : Nat} (h : cancelledBy cancelAt t = false)
    (hst : s ≤ t) : cancelledBy cancelAt s = false := by
  rw [← Bool.not_eq_true] at h ⊢
  intro hs
  obtain ⟨u, hu, hus⟩ := cancelledBy_iff.1 hs
  exact h (cancelledBy_iff.2 ⟨u, hu, Nat.le_trans hus hst⟩)

namespace Behaviour

/-- How long after its sending the editor replies to a request, if it ever does. -/
def delay? : Behaviour → Option Nat
  | .answer _ afterMs => some afterMs
  | .refuse _ afterMs => some afterMs
  | .hang => none

variable {timeoutMs : Nat} (now : Nat)

theorem finish_answer (value : Json) {afterMs : Nat} (h : afterMs ≤ timeoutMs) :
    (answer value afterMs).finish now timeoutMs = (now + afterMs, .answered value) :=
  if_pos (Nat.add_le_add_left h now)

theorem finish_refuse (reason : Text) {afterMs : Nat} (h : afterMs ≤ timeoutMs) :
    (refuse reason afterMs).finish now timeoutMs = (now + afterMs, .refused reason) :=
  if_pos (Nat.add_le_add_left h now)

theorem finish_late {b : Behaviour} (h : ∀ afterMs ∈ b.delay?, timeoutMs < afterMs) :
    b.finish now timeoutMs = (now + timeoutMs, .timedOut) := by
  cases b with
  | hang => rfl
  | answer value afterMs | refuse reason afterMs =>
    have hlate : timeoutMs < afterMs := h afterMs rfl
    exact if_neg (by omega)

/-- A request ends with the reply or with the waiting time, whichever comes first. -/
theorem le_finish_iff {b : Behaviour} {now t : Nat} :
    t ≤ (b.finish now timeoutMs).1 ↔
      (∀ afterMs ∈ b.delay?, t ≤ now + afterMs) ∧ t ≤ now + timeoutMs := by
  cases b with
  | hang => simp [finish, reply?, delay?]
  | answer value afterMs | refuse reason afterMs =>
    simp only [finish, reply?, delay?, Option.mem_def, Option.some.injEq, forall_eq']
    split
    · show t ≤ now + afterMs ↔ _
      omega
    · show t ≤ now + timeoutMs ↔ _
      omega

end Behaviour

/-! ### Definition files -/

namespace EditionTable

/-- The definition file of an edition, under the entries that the settings have. -/
inductive FileOf (entries : List (Text × Text)) (version : Text) : Text → Prop
  /-- The last entry for the edition has it. -/
  | given {file : Text}
      (h : (entries.filter fun entry => entry.1 = version).getLast? = some (version, file)) :
      FileOf entries version file
  /-- It is known without any settings. -/
  | known {file : Text} (hnone : ∀ entry ∈ entries, entry.1 ≠ version)
      (h : (version, file) ∈ builtIn.entries) : FileOf entries version file
  /-- It has the name of the edition. -/
  | own (hnone : ∀ entry ∈ entries, entry.1 ≠ version)
      (hunknown : ∀ entry ∈ builtIn.entries, entry.1 ≠ version) :
      FileOf entries version (version ++ ".json".toList)

variable {entries : List (Text × Text)} {version file : Text}

theorem FileOf.definitionsFile_eq (h : FileOf entries version file) :
    (merged entries).definitionsFile version = file := by
  unfold definitionsFile merged
  rw [OrderedMap.get?_insertAll]
  cases h with
  | given h =>
    rw [h]
    rfl
  | known hnone h =>
    have hfilter : (entries.filter fun entry => entry.1 = version) = [] := by simpa using hnone
    have htable : ∀ entry ∈ builtIn.entries, builtIn.get? entry.1 = some entry.2 := by decide
    rw [hfilter, htable _ h]
    rfl
  | own hnone hunknown =>
    have hfilter : (entries.filter fun entry => entry.1 = version) = [] := by simpa using hnone
    have htable : builtIn.get? version = none := by simpa [OrderedMap.get?] using hunknown
    rw [hfilter, htable]
    rfl

theorem exists_fileOf (entries : List (Text × Text)) (version : Text) :
    ∃ file, FileOf entries version file := by
  cases hlast : (entries.filter fun entry => entry.1 = version).getLast? with
  | some entry =>
    obtain ⟨key, file⟩ := entry
    obtain rfl : key = version := by simpa using (List.mem_filter.1 (List.mem_of_getLast? hlast)).2
    exact ⟨file, .given hlast⟩
  | none =>
    have hnone : ∀ entry ∈ entries, entry.1 ≠ version := by simpa using hlast
    by_cases hknown : ∃ file, (version, file) ∈ builtIn.entries
    · obtain ⟨file, hfile⟩ := hknown
      exact ⟨file, .known hnone hfile⟩
    · refine ⟨_, .own hnone ?_⟩
      rintro ⟨key, file⟩ hmem rfl
      exact hknown ⟨file, hmem⟩

/-- **The table of the settings gives an edition the file that belongs to it.** -/
theorem definitionsFile_merged_iff :
    (merged entries).definitionsFile version = file ↔ FileOf entries version file := by
  refine ⟨?_, FileOf.definitionsFile_eq⟩
  rintro rfl
  obtain ⟨file, hfile⟩ := exists_fileOf entries version
  exact hfile.definitionsFile_eq ▸ hfile

end EditionTable

/-! ### How a request ends -/

namespace Inquiry

/-- The request `r`, sent at `now`, is answered at the time `due` with a value that it takes: the
waiting time is not over before that, and nothing has been cancelled by then. -/
structure Answered (c : Setting) (r : Request) (now due : Nat) (value : Json) : Prop where
  /-- This is the editor's reply. -/
  reply : ∃ afterMs, c.editor r = .answer value afterMs ∧ due = now + afterMs
  /-- It comes in time. -/
  inTime : due ≤ now + c.timeoutMs now
  /-- It comes before any cancellation. -/
  live : cancelledBy c.cancelAt due = false
  /-- It can be read. -/
  takes : r.Takes value

/-- The request `r`, due at `now`, brings no answer, for the given reason. -/
inductive Fails (c : Setting) (r : Request) (now : Nat) : RequestError → Prop
  /-- The cancellation comes no later than the reply and the end of the waiting time; it may have
  come before the request is sent. -/
  | cancelled {t : Nat} (ht : c.cancelAt = some t)
      (hreply : ∀ afterMs ∈ (c.editor r).delay?, t ≤ now + afterMs)
      (htime : t ≤ now + c.timeoutMs now) : Fails c r now (.cancelled r.method)
  /-- The editor replies with an error in time. -/
  | refused {reason : Text} {afterMs : Nat} (hreply : c.editor r = .refuse reason afterMs)
      (htime : afterMs ≤ c.timeoutMs now) (hlive : cancelledBy c.cancelAt (now + afterMs) = false) :
      Fails c r now (.failed r.method reason)
  /-- The editor replies in time with a value that the request does not take. -/
  | misread {value : Json} {afterMs : Nat} {words : Text}
      (hreply : c.editor r = .answer value afterMs) (htime : afterMs ≤ c.timeoutMs now)
      (hlive : cancelledBy c.cancelAt (now + afterMs) = false)
      (hwords : r.accept value = .error words) : Fails c r now (.failed r.method words)
  /-- The waiting time that is in force when the request is sent is over before the reply and the
  cancellation. -/
  | timedOut (hlate : ∀ afterMs ∈ (c.editor r).delay?, c.timeoutMs now < afterMs)
      (hlive : cancelledBy c.cancelAt (now + c.timeoutMs now) = false) :
      Fails c r now (.timedOut r.method (c.timeoutMs now))

variable {c : Setting} {r : Request} {now : Nat}

/-- Every request is answered or fails. -/
theorem answered_or_fails (c : Setting) (r : Request) (now : Nat) :
    (∃ due value, Answered c r now due value) ∨ ∃ e, Fails c r now e := by
  by_cases hcancel : cancelledBy c.cancelAt ((c.editor r).finish now (c.timeoutMs now)).1 = true
  · obtain ⟨t, ht, hdue⟩ := cancelledBy_iff.1 hcancel
    obtain ⟨hreply, htime⟩ := Behaviour.le_finish_iff.1 hdue
    exact .inr ⟨_, .cancelled ht hreply htime⟩
  rw [Bool.not_eq_true] at hcancel
  by_cases hlate : ∀ afterMs ∈ (c.editor r).delay?, c.timeoutMs now < afterMs
  · rw [Behaviour.finish_late now hlate] at hcancel
    exact .inr ⟨_, .timedOut hlate hcancel⟩
  -- the reply comes in time, so only what it says matters
  cases hb : c.editor r with
  | hang => exact absurd (by simp [hb, Behaviour.delay?]) hlate
  | refuse reason afterMs =>
    have htime : afterMs ≤ c.timeoutMs now := by simpa [hb, Behaviour.delay?] using hlate
    rw [hb, Behaviour.finish_refuse now reason htime] at hcancel
    exact .inr ⟨_, .refused hb htime hcancel⟩
  | answer value afterMs =>
    have htime : afterMs ≤ c.timeoutMs now := by simpa [hb, Behaviour.delay?] using hlate
    rw [hb, Behaviour.finish_answer now value htime] at hcancel
    by_cases htakes : r.Takes value
    · exact .inl ⟨_, value, ⟨afterMs, hb, rfl⟩, Nat.add_le_add_left htime now, hcancel, htakes⟩
    · obtain ⟨words, hwords⟩ := Request.exists_accept_eq_error htakes
      exact .inr ⟨_, .misread hb htime hcancel hwords⟩

theorem outcome_of_cancelledBy {due : Nat} {ending : Ending}
    (hfinish : (c.editor r).finish now (c.timeoutMs now) = (due, ending))
    (hcancel : cancelledBy c.cancelAt due = true) :
    (c.outcome r now).2 = .error (.cancelled r.method) := by
  simp only [Setting.outcome, Request.run, hfinish, if_pos hcancel]
  rfl

theorem outcome_of_live {due : Nat} {ending : Ending}
    (hfinish : (c.editor r).finish now (c.timeoutMs now) = (due, ending))
    (hlive : cancelledBy c.cancelAt due = false) :
    c.outcome r now = (due, ending.result r (c.timeoutMs now)) := by
  simp only [Setting.outcome, Request.run, hfinish, hlive, Bool.false_eq_true, if_false]

theorem Answered.outcome_eq {due : Nat} {value : Json} (h : Answered c r now due value) :
    c.outcome r now = (due, .ok value) := by
  obtain ⟨⟨afterMs, hb, rfl⟩, htime, hlive, htakes⟩ := h
  have hfinish := Behaviour.finish_answer now value (Nat.le_of_add_le_add_left htime)
  rw [outcome_of_live (hb ▸ hfinish) hlive, Ending.result, Request.accept_of_takes htakes]
  rfl

theorem Fails.outcome_eq {e : RequestError} (h : Fails c r now e) :
    (c.outcome r now).2 = .error e := by
  cases h with
  | cancelled ht hreply htime =>
    have hdue := Behaviour.le_finish_iff.2 ⟨hreply, htime⟩
    exact outcome_of_cancelledBy rfl (cancelledBy_iff.2 ⟨_, ht, hdue⟩)
  | @refused reason _ hb htime hlive =>
    have hfinish := Behaviour.finish_refuse now reason htime
    rw [outcome_of_live (hb ▸ hfinish) hlive, Ending.result]
  | @misread value _ _ hb htime hlive hwords =>
    have hfinish := Behaviour.finish_answer now value htime
    rw [outcome_of_live (hb ▸ hfinish) hlive, Ending.result, hwords]
    rfl
  | timedOut hlate hlive =>
    rw [outcome_of_live (Behaviour.finish_late now hlate) hlive, Ending.result]

/-- An answered request was not cancelled when it was sent. -/
theorem Answered.live_at_start {due : Nat} {value : Json} (h : Answered c r now due value) :
    cancelledBy c.cancelAt now = false := by
  obtain ⟨afterMs, -, rfl⟩ := h.reply
  exact live_of_le h.live (Nat.le_add_right now afterMs)

/-- Whatever is cancelled when it is due fails for that reason. -/
theorem Fails.eq_cancelled {e : RequestError} (h : Fails c r now e)
    (hcancel : cancelledBy c.cancelAt now = true) : e = .cancelled r.method := by
  have hlater : ∀ afterMs, cancelledBy c.cancelAt (now + afterMs) ≠ false := by
    intro afterMs hlive
    have := live_of_le hlive (Nat.le_add_right now afterMs)
    simp [this] at hcancel
  cases h with
  | cancelled ht hreply htime => rfl
  | refused hb htime hlive | misread hb htime hlive hwords | timedOut hlate hlive =>
    exact absurd hlive (hlater _)

/-! ### Runs -/

/-- What is sent at `now` to find out what the settings give as `given?`: the request `r`, unless
the settings say it already or the inquiry is cancelled. -/
def asked (c : Setting) (given? : Option Text) (r : Request) (now : Nat) : List Dispatch :=
  if given?.isNone && !cancelledBy c.cancelAt now then [⟨now, r⟩] else []

theorem mem_asked_iff {given? : Option Text} {d : Dispatch} :
    d ∈ asked c given? r now ↔
      d = ⟨now, r⟩ ∧ given? = none ∧ cancelledBy c.cancelAt now = false := by
  unfold asked
  split <;> simp_all

theorem runFrom_resolved (c : Setting) (selection : Option Selection) (now : Nat) :
    runFrom c (.resolved selection) now = ⟨.ok selection, [], now⟩ := by
  rw [runFrom]
  rfl

theorem runFrom_of_answered (inquiry : Inquiry) {due : Nat} {value : Json}
    (hr : inquiry.request? = some r) (h : Answered c r now due value) :
    (runFrom c inquiry now).result =
        (runFrom c (answer c.settings inquiry value) (due + c.pauseMs due)).result ∧
      (runFrom c inquiry now).sent =
        ⟨now, r⟩ :: (runFrom c (answer c.settings inquiry value) (due + c.pauseMs due)).sent := by
  rw [runFrom]
  split
  · simp_all
  · rename_i r' hr'
    obtain rfl : r' = r := by simpa [hr'] using hr
    simp [h.live_at_start, h.outcome_eq]

theorem runFrom_of_fails (inquiry : Inquiry) {e : RequestError}
    (hr : inquiry.request? = some r) (h : Fails c r now e) :
    (runFrom c inquiry now).result = .error e ∧
      (runFrom c inquiry now).sent = asked c none r now := by
  rw [runFrom]
  split
  · simp_all
  · rename_i r' hr'
    obtain rfl : r' = r := by simpa [hr'] using hr
    by_cases hcancel : cancelledBy c.cancelAt now = true
    · simp [hcancel, h.eq_cancelled hcancel, asked]
    · obtain ⟨due, hdue⟩ : ∃ due, c.outcome r' now = (due, .error e) :=
        ⟨_, Prod.ext rfl h.outcome_eq⟩
      simp [hcancel, hdue, asked]

/-! ### The two things to find out -/

theorem nonEmptyText?_eq_none_iff {value : Json} :
    nonEmptyText? value = none ↔ ∀ text, value = .text text → text = [] := by
  unfold nonEmptyText? Json.text
  cases value with
  | str t => cases t <;> simp [Json.asText?]
  | null | bool | num | arr | obj => simp [Json.asText?]

theorem nonEmptyText?_text {text : Text} (h : text ≠ []) :
    nonEmptyText? (.text text) = some text := by
  simpa [nonEmptyText?, Json.text, Json.asText?] using h

/-- What becomes of one of the things to find out, which the settings may give as `given?` and which
the request `r` asks for at the time `now`: the reason why the request fails, or the text that is
known with the time when the inquiry goes on with it. -/
inductive Learns (c : Setting) (given? : Option Text) (r : Request) (now : Nat) :
    Except RequestError (Option (Text × Nat)) → Prop
  /-- The settings give it. -/
  | given {text : Text} (h : given? = some text) : Learns c given? r now (.ok (some (text, now)))
  /-- The editor answers with a text that is not empty. -/
  | told {text : Text} {due : Nat} (h : given? = none) (ha : Answered c r now due (.text text))
      (hne : text ≠ []) : Learns c given? r now (.ok (some (text, due + c.pauseMs due)))
  /-- The editor answers with anything else. -/
  | untold {value : Json} {due : Nat} (h : given? = none) (ha : Answered c r now due value)
      (hvalue : ∀ text, value = .text text → text = []) : Learns c given? r now (.ok none)
  /-- The request for it fails. -/
  | fails {e : RequestError} (h : given? = none) (he : Fails c r now e) :
      Learns c given? r now (.error e)

theorem exists_learns (c : Setting) (given? : Option Text) (r : Request) (now : Nat) :
    ∃ x, Learns c given? r now x := by
  cases hg : given? with
  | some text => exact ⟨_, .given rfl⟩
  | none =>
    obtain ⟨due, value, ha⟩ | ⟨e, he⟩ := answered_or_fails c r now
    · by_cases hvalue : ∀ text, value = .text text → text = []
      · exact ⟨_, .untold rfl ha hvalue⟩
      · obtain ⟨text, htext⟩ := Classical.not_forall.1 hvalue
        obtain ⟨rfl, hne⟩ := Classical.not_imp.1 htext
        exact ⟨_, .told rfl ha hne⟩
    · exact ⟨_, .fails rfl he⟩

variable {given? : Option Text}

/-- What the settings give is known at once. -/
theorem Learns.of_given {text : Text} {x : Except RequestError (Option (Text × Nat))}
    (h : Learns c given? r now x) (hg : given? = some text) : x = .ok (some (text, now)) := by
  subst hg
  cases h with
  | given hg =>
    obtain rfl := Option.some.inj hg
    rfl
  | told hg | untold hg | fails hg => exact nomatch hg

theorem Learns.of_error {e : RequestError}
    (h : Learns c given? r now (.error e)) : given? = none ∧ Fails c r now e := by
  cases h with
  | fails hg he => exact ⟨hg, he⟩

/-- What the settings do not give, and for which the request does not fail, is in the answer. -/
theorem Learns.of_ok {known : Option (Text × Nat)} (h : Learns c given? r now (.ok known))
    (hnone : given? = none) :
    ∃ due value, Answered c r now due value ∧ nonEmptyText? value = known.map Prod.fst ∧
      ∀ k ∈ known, k.2 = due + c.pauseMs due := by
  subst hnone
  cases h with
  | given hg => exact nomatch hg
  | told _ ha hne => exact ⟨_, _, ha, nonEmptyText?_text hne, by simp⟩
  | untold _ ha hvalue => exact ⟨_, _, ha, nonEmptyText?_eq_none_iff.2 hvalue, by simp⟩

/-- What becomes of the folder in an inquiry that begins at `now`. -/
abbrev Folder (c : Setting) (now : Nat) : Except RequestError (Option (Text × Nat)) → Prop :=
  Learns c c.settings.folderPath (.getStored .folderPath) now

/-- What becomes of the edition in an inquiry that knows the folder at `now`. -/
abbrev Edition (c : Setting) (now : Nat) : Except RequestError (Option (Text × Nat)) → Prop :=
  Learns c c.settings.gameVersion .version now

/-- What an inquiry that begins at `now` finds out. -/
inductive Finds (c : Setting) (now : Nat) : Except RequestError (Option Selection) → Prop
  /-- The request for the folder fails. -/
  | folderFails {e : RequestError} (hf : Folder c now (.error e)) : Finds c now (.error e)
  /-- The folder is unknown. -/
  | folderUnknown (hf : Folder c now (.ok none)) : Finds c now (.ok none)
  /-- The request for the edition fails. -/
  | editionFails {folder : Text} {t : Nat} {e : RequestError}
      (hf : Folder c now (.ok (some (folder, t)))) (he : Edition c t (.error e)) :
      Finds c now (.error e)
  /-- The edition is unknown. -/
  | editionUnknown {folder : Text} {t : Nat} (hf : Folder c now (.ok (some (folder, t))))
      (he : Edition c t (.ok none)) : Finds c now (.ok none)
  /-- Both are known, and with them the definition file. -/
  | both {folder version file : Text} {t u : Nat} (hf : Folder c now (.ok (some (folder, t))))
      (he : Edition c t (.ok (some (version, u))))
      (hfile : EditionTable.FileOf c.settings.versions.entries version file) :
      Finds c now (.ok (some ⟨folder, version, file⟩))

theorem exists_finds (c : Setting) (now : Nat) : ∃ x, Finds c now x := by
  obtain ⟨_ | _ | ⟨folder, t⟩, hf⟩ := exists_learns c c.settings.folderPath _ now
  · exact ⟨_, .folderFails hf⟩
  · exact ⟨_, .folderUnknown hf⟩
  · obtain ⟨_ | _ | ⟨version, u⟩, he⟩ := exists_learns c c.settings.gameVersion .version t
    · exact ⟨_, .editionFails hf he⟩
    · exact ⟨_, .editionUnknown hf he⟩
    · exact ⟨_, .both hf he (EditionTable.definitionsFile_merged_iff.1 rfl)⟩

/-- What the editor is asked once the folder is known, and what comes of it. -/
theorem runFrom_withFolder {t : Nat} {x : Except RequestError (Option (Text × Nat))}
    (h : Edition c t x) (folder : Text) :
    (runFrom c (withFolder c.settings folder) t).result =
        x.map (Option.map fun known => c.settings.table.select folder known.1) ∧
      (runFrom c (withFolder c.settings folder) t).sent =
        asked c c.settings.gameVersion .version t := by
  unfold withFolder
  cases hg : c.settings.gameVersion with
  | some version =>
    rw [h.of_given hg, runFrom_resolved]
    exact ⟨rfl, rfl⟩
  | none =>
    cases x with
    | error e => exact runFrom_of_fails (.askVersion folder) rfl h.of_error.2
    | ok known =>
      obtain ⟨due, value, ha, hvalue, -⟩ := h.of_ok hg
      obtain ⟨hresult, hsent⟩ := runFrom_of_answered (.askVersion folder) rfl ha
      simp only [hresult, hsent, answer, hvalue, runFrom_resolved, Option.map_map]
      exact ⟨rfl, by simp [asked, ha.live_at_start]⟩

/-- An inquiry that comes to know the folder goes on to the edition. -/
theorem run_of_folder {folder : Text} {t : Nat} (h : Folder c now (.ok (some (folder, t)))) :
    (run c now).result = (runFrom c (withFolder c.settings folder) t).result ∧
      (run c now).sent = asked c c.settings.folderPath (.getStored .folderPath) now ++
        (runFrom c (withFolder c.settings folder) t).sent := by
  unfold run start
  cases hg : c.settings.folderPath with
  | some given =>
    obtain ⟨rfl, rfl⟩ : folder = given ∧ t = now := by
      simpa using h.of_given hg
    exact ⟨rfl, rfl⟩
  | none =>
    obtain ⟨due, value, ha, hvalue, hdue⟩ := h.of_ok hg
    obtain rfl : t = due + c.pauseMs due := hdue _ rfl
    obtain ⟨hresult, hsent⟩ := runFrom_of_answered .askFolder rfl ha
    rw [hresult, hsent, answer, hvalue]
    exact ⟨rfl, by simp [asked, ha.live_at_start]⟩

theorem run_of_folder_unknown (h : Folder c now (.ok none)) :
    (run c now).result = .ok none ∧
      (run c now).sent = asked c c.settings.folderPath (.getStored .folderPath) now := by
  unfold run start
  cases hg : c.settings.folderPath with
  | some given => exact nomatch h.of_given hg
  | none =>
    obtain ⟨due, value, ha, hvalue, -⟩ := h.of_ok hg
    obtain ⟨hresult, hsent⟩ := runFrom_of_answered .askFolder rfl ha
    rw [hresult, hsent, answer, hvalue]
    simp [runFrom_resolved, asked, ha.live_at_start]

theorem run_of_folder_fails {e : RequestError} (h : Folder c now (.error e)) :
    (run c now).result = .error e ∧
      (run c now).sent = asked c c.settings.folderPath (.getStored .folderPath) now := by
  obtain ⟨hg, he⟩ := h.of_error
  rw [run, start, hg]
  exact runFrom_of_fails .askFolder rfl he

theorem Finds.result_eq {x : Except RequestError (Option Selection)} (h : Finds c now x) :
    (run c now).result = x := by
  cases h with
  | folderFails hf => exact (run_of_folder_fails hf).1
  | folderUnknown hf => exact (run_of_folder_unknown hf).1
  | editionFails hf he | editionUnknown hf he =>
    rw [(run_of_folder hf).1, (runFrom_withFolder he _).1]
    rfl
  | both hf he hfile =>
    obtain rfl := EditionTable.definitionsFile_merged_iff.2 hfile
    rw [(run_of_folder hf).1, (runFrom_withFolder he _).1]
    rfl

/-- A run returns what the inquiry finds out. -/
theorem run_result_iff {x : Except RequestError (Option Selection)} :
    (run c now).result = x ↔ Finds c now x := by
  refine ⟨?_, Finds.result_eq⟩
  rintro rfl
  obtain ⟨x, hx⟩ := exists_finds c now
  exact hx.result_eq ▸ hx

/-- A run that comes to know the folder sends what is missing. -/
theorem run_sent_of_folder {folder : Text} {t : Nat} (h : Folder c now (.ok (some (folder, t)))) :
    (run c now).sent = asked c c.settings.folderPath (.getStored .folderPath) now ++
      asked c c.settings.gameVersion .version t := by
  obtain ⟨x, hx⟩ := exists_learns c c.settings.gameVersion .version t
  rw [(run_of_folder h).2, (runFrom_withFolder hx folder).2]

/-- A run asks for the folder, and for the edition only when it knows the folder. -/
theorem run_sent_cases (c : Setting) (now : Nat) :
    (run c now).sent = asked c c.settings.folderPath (.getStored .folderPath) now ∨
      ∃ folder t, Folder c now (.ok (some (folder, t))) ∧
        (run c now).sent = asked c c.settings.folderPath (.getStored .folderPath) now ++
          asked c c.settings.gameVersion .version t := by
  obtain ⟨_ | _ | ⟨folder, t⟩, hf⟩ := exists_learns c c.settings.folderPath _ now
  · exact .inl (run_of_folder_fails hf).2
  · exact .inl (run_of_folder_unknown hf).2
  · exact .inr ⟨folder, t, hf, run_sent_of_folder hf⟩

/-- The request for the folder is sent at the start of a run, if at all. -/
theorem mem_sent_folder_iff {t : Nat} :
    ⟨t, .getStored .folderPath⟩ ∈ (run c now).sent ↔
      t = now ∧ c.settings.folderPath = none ∧ cancelledBy c.cancelAt now = false := by
  obtain h | ⟨folder, u, -, h⟩ := run_sent_cases c now
  · simp [h, mem_asked_iff]
  · simp [h, mem_asked_iff]

/-- The request for the edition is sent when the inquiry goes on with the folder, if at all. -/
theorem mem_sent_version_iff {t : Nat} :
    ⟨t, .version⟩ ∈ (run c now).sent ↔
      (∃ folder, Folder c now (.ok (some (folder, t)))) ∧ c.settings.gameVersion = none ∧
        cancelledBy c.cancelAt t = false := by
  constructor
  · intro hmem
    obtain h | ⟨folder, u, hf, h⟩ := run_sent_cases c now
    · simp [h, mem_asked_iff] at hmem
    · obtain ⟨rfl, hnone, hlive⟩ : t = u ∧ _ := by simpa [h, mem_asked_iff] using hmem
      exact ⟨⟨folder, hf⟩, hnone, hlive⟩
  · rintro ⟨⟨folder, hf⟩, hnone, hlive⟩
    rw [run_sent_of_folder hf, List.mem_append]
    exact .inr (mem_asked_iff.2 ⟨rfl, hnone, hlive⟩)

theorem map_request_asked_sublist (c : Setting) (given? : Option Text) (r : Request) (now : Nat) :
    ((asked c given? r now).map (·.request)).Sublist [r] := by
  unfold asked
  split
  · exact List.Sublist.refl _
  · exact List.nil_sublist _

/-- A run sends nothing but the two requests, each at most once and in this order. -/
theorem map_request_sent_sublist (c : Setting) (now : Nat) :
    ((run c now).sent.map (·.request)).Sublist [.getStored .folderPath, .version] := by
  have hfolder := map_request_asked_sublist c c.settings.folderPath (.getStored .folderPath) now
  obtain h | ⟨folder, t, -, h⟩ := run_sent_cases c now
  · rw [h]
    exact hfolder.trans (List.sublist_append_left _ [Request.version])
  · rw [h, List.map_append]
    exact hfolder.append (map_request_asked_sublist c c.settings.gameVersion .version t)

/-- Nothing is sent once a run is cancelled. -/
theorem live_of_mem_sent {d : Dispatch} (hd : d ∈ (run c now).sent) :
    cancelledBy c.cancelAt d.time = false := by
  have hlive : ∀ given? r t, d ∈ asked c given? r t → cancelledBy c.cancelAt d.time = false := by
    intro given? r t hmem
    obtain ⟨rfl, -, hlive⟩ := mem_asked_iff.1 hmem
    exact hlive
  obtain h | ⟨folder, t, -, h⟩ := run_sent_cases c now
  · exact hlive _ _ _ (h ▸ hd)
  · obtain hd | hd := List.mem_append.1 (h ▸ hd)
    · exact hlive _ _ _ hd
    · exact hlive _ _ _ hd

/-- **An inquiry asks for exactly what is missing.**  It sends the request for the folder when the
settings do not give the folder, and the request for the edition when the folder is known and the
settings do not give the edition; neither is sent once the inquiry is cancelled, and nothing else
is.  Its result is the error of the first request that fails, else nothing if the folder or the
edition is unknown, else the folder and the edition with the definition file that belongs to it. -/
theorem asks_exactly_what_is_missing (c : Setting) (now : Nat) :
    (∀ t, ⟨t, .getStored .folderPath⟩ ∈ (run c now).sent ↔
      t = now ∧ c.settings.folderPath = none ∧ cancelledBy c.cancelAt now = false) ∧
    (∀ t, ⟨t, .version⟩ ∈ (run c now).sent ↔
      (∃ folder, Folder c now (.ok (some (folder, t)))) ∧ c.settings.gameVersion = none ∧
        cancelledBy c.cancelAt t = false) ∧
    ((run c now).sent.map (·.request)).Sublist [.getStored .folderPath, .version] ∧
    (∀ d ∈ (run c now).sent, cancelledBy c.cancelAt d.time = false) ∧
    ∀ x, (run c now).result = x ↔ Finds c now x := by
  refine ⟨fun t => mem_sent_folder_iff, fun t => mem_sent_version_iff,
    map_request_sent_sublist c now, fun d hd => live_of_mem_sent hd, fun x => ?_⟩
  exact run_result_iff

end Inquiry

end OpcodeLens
