import OpcodeLens.Proofs.Server.Loading

/-!
# The latest settings win

Refreshes start and go on in any order, whatever the order in which they were spawned.  Still the
newest one ends with what the settings in force ask for: it reads the settings after it has taken
its ticket, and new settings always spawn a refresh, which takes a newer ticket as soon as it
starts.

* `Server.InForce` : the invariant.  The newest refresh has read the settings in force, or a refresh
  has yet to start.
* `Server.InForce.notice`, `Server.InForce.changed` : notices and steps of refreshes keep it.
* `Server.latest_settings_win` : **whenever all refreshes have ended, the newest one has used the
  settings in force.**
-/

namespace OpcodeLens

/-- The settings that the refresh has read. -/
def Refresh.settings? : Refresh → Option Settings
  | .asking _ settings _ _ => some settings
  | .resolved _ settings _ => some settings
  | .loaded _ settings _ _ => some settings
  | .finished _ (.settled settings _ _) => some settings
  | _ => none

/-- Is this a notice that comes after the opening? -/
def Notice.IsLater : Notice → Prop
  | .opening _ => False
  | _ => True

namespace Server

variable {s s' : Server} {i : Nat} {sent : List Outgoing} {t : Rebuild.Ticket}
  {before after : Refresh} {service : Rebuild.Service} {σ : Settings}

/-! ### What steps do to settings -/

theorem Leads.settings? {settings : Settings} {inquiry : Inquiry}
    (h : Leads s i t settings inquiry after sent) (ha : after.settings? = some σ) :
    σ = settings := by
  cases h with
  | resolved selection => exact (Option.some.inj ha).symm
  | ask _ _ => exact (Option.some.inj ha).symm
  | cancelled _ => cases ha

/-- A refresh reads the settings in force, and sticks to them afterwards. -/
theorem Change.settings? (h : Change s i before after service sent)
    (ha : after.settings? = some σ) : before.settings? = some σ ∨ σ = s.settings := by
  cases h with
  | begin => cases ha
  | inquire hleads => exact .inr (hleads.settings? ha)
  | answer _ _ _ hleads =>
    obtain rfl := hleads.settings? ha
    exact .inl rfl
  | cancel _ => cases ha
  | skip _ _ => cases ha
  | load _ _ => exact .inl ha
  | publish => exact .inl ha

/-- A later notice leaves the settings alone, or it puts new ones in force and spawns a refresh. -/
theorem notice_settings (s : Server) {n : Notice} (hn : n.IsLater) :
    ((s.notice n).1.settings = s.settings ∧ (s.notice n).1.timeoutMs = s.timeoutMs) ∨
      ((s.notice n).1.timeoutMs = (s.notice n).1.settings.requestTimeoutMs ∧
        .spawned ∈ (s.notice n).1.refreshes) := by
  cases n with
  | opening => exact hn.elim
  | opened | documentOpened | documentClosed => exact .inl ⟨rfl, rfl⟩
  | documentChanged =>
    unfold notice
    simp only
    split <;> exact .inl ⟨rfl, rfl⟩
  | settingsChanged json =>
    unfold notice
    simp only
    split
    · exact .inr ⟨rfl, List.mem_append_right _ List.mem_cons_self⟩
    · exact .inl ⟨rfl, rfl⟩

theorem mem_refreshes_notice {n : Notice} {r : Refresh} (h : r ∈ s.refreshes) :
    r ∈ (s.notice n).1.refreshes := by
  obtain ⟨j, hj⟩ := List.getElem?_of_mem h
  exact List.mem_of_getElem? (getElem?_notice hj)

theorem spawned_mem_changed (hi : s.refreshes[i]? = some before) (ht : before.ticket? = some t)
    (h : .spawned ∈ s.refreshes) : .spawned ∈ (s.changed i after service).refreshes := by
  obtain ⟨j, hj⟩ := List.getElem?_of_mem h
  have hji : j ≠ i := by
    rintro rfl
    obtain rfl : Refresh.spawned = before := Option.some.inj (hj.symm.trans hi)
    cases ht
  refine List.mem_of_getElem? (i := j) ?_
  rw [getElem?_changed hi, if_neg hji]
  exact hj

/-! ### The invariant -/

/-- What a server keeps from its opening on. -/
structure InForce (s : Server) : Prop where
  /-- Whatever holds of all servers. -/
  kept : s.Kept
  /-- The waiting time is that of the settings. -/
  timeout : s.timeoutMs = s.settings.requestTimeoutMs
  /-- The newest refresh has read the settings in force, or a refresh has yet to start. -/
  latest : ∀ r ∈ s.refreshes, ∀ t σ, r.ticket? = some t → s.rebuilds.isCurrent t = true →
    r.settings? = some σ → σ = s.settings ∨ .spawned ∈ s.refreshes

theorem Kept.issued_of_mem (h : s.Kept) {r : Refresh} (hr : r ∈ s.refreshes)
    (ht : r.ticket? = some t) : s.rebuilds.Issued t := by
  obtain ⟨j, hj⟩ := List.getElem?_of_mem hr
  exact h.issued j t ((ticketAt?_of_getElem? hj).trans ht)

theorem inForce_opening (payload : Option Json) :
    InForce (({} : Server).notice (.opening payload)).1 where
  kept := kept_fresh.notice _
  timeout := by
    unfold notice
    simp only
    split <;> rfl
  latest := by
    intro r hr t σ ht
    rcases mem_or_eq_of_mem_notice hr with hr | rfl
    · cases hr
    · cases ht

theorem InForce.notice (h : s.InForce) {n : Notice} (hn : n.IsLater) : (s.notice n).1.InForce where
  kept := h.kept.notice n
  timeout := by
    rcases s.notice_settings hn with ⟨hσ, hms⟩ | ⟨hms, -⟩
    · rw [hms, hσ, h.timeout]
    · exact hms
  latest := by
    intro r hr t σ ht hc hσ
    rw [notice_rebuilds] at hc
    -- new settings come with a refresh that has yet to start
    rcases s.notice_settings hn with ⟨hsame, -⟩ | ⟨-, hspawned⟩
    · rcases mem_or_eq_of_mem_notice hr with hr | rfl
      · rw [hsame]
        exact (h.latest r hr t σ ht hc hσ).imp_right mem_refreshes_notice
      · cases ht
    · exact .inr hspawned

/-- A refresh that takes a ticket has not read any settings, and the others are no longer newest. -/
theorem InForce.begin (h : s.InForce) (hi : s.refreshes[i]? = some .spawned) :
    (s.changed i (.begun s.rebuilds.begin.1) s.rebuilds.begin.2).InForce where
  kept := h.kept.begin hi
  timeout := h.timeout
  latest := by
    intro r hr t σ ht hc hσ
    rcases List.mem_or_eq_of_mem_set hr with hr | rfl
    · -- an old ticket cannot be current any more
      have hle := (h.kept.issued_of_mem hr ht).le
      have hgen := Rebuild.Service.isCurrent_iff.1 hc
      exact absurd (hgen ▸ hle) (Nat.not_succ_le_self _)
    · cases hσ

theorem InForce.changed (h : s.InForce) (hi : s.refreshes[i]? = some before)
    (hc : Change s i before after service sent) : (s.changed i after service).InForce := by
  have hmem := List.mem_of_getElem? hi
  rcases hc.effect h.kept.sound fun t => h.kept.issued_of_mem hmem with
    ⟨rfl, rfl, rfl⟩ | ⟨t, hb, ha, heffect⟩
  · exact h.begin hi
  · refine ⟨h.kept.changed hi hc, h.timeout, ?_⟩
    have hcurrent : ∀ u, service.isCurrent u = s.rebuilds.isCurrent u := by
      rcases heffect with ⟨rfl, -⟩ | ⟨-, p, rfl⟩
      · exact fun u => rfl
      · exact fun u => rfl
    intro r hr u σ hu huc hσ
    rw [show (s.changed i after service).rebuilds = service from rfl, hcurrent] at huc
    rcases List.mem_or_eq_of_mem_set hr with hr | rfl
    · exact (h.latest r hr u σ hu huc hσ).imp_right (spawned_mem_changed hi hb)
    · obtain rfl : t = u := Option.some.inj (ha.symm.trans hu)
      -- what the refresh has read before is covered by the invariant, what it reads now is in force
      rcases hc.settings? hσ with hσ | hσ
      · exact (h.latest before hmem t σ hb huc hσ).imp_right (spawned_mem_changed hi hb)
      · exact .inl hσ

theorem InForce.steps (h : s.InForce) (hs : Relation.ReflTransGen (Step Notice.IsLater) s s') :
    s'.InForce := by
  induction hs with
  | refl => exact h
  | tail _ hstep ih =>
    cases hstep with
    | notice n hn => exact ih.notice hn
    | move hm =>
      obtain ⟨before, after, service, hi, hc, rfl⟩ := change_of_move hm
      exact ih.changed hi hc

/-- Once all refreshes have ended, the newest one has read the settings in force. -/
theorem InForce.eq_settings_of_idle (h : s.InForce) (hidle : s.Idle) {r : Refresh}
    (hr : r ∈ s.refreshes) (ht : r.ticket? = some t) (hnewest : s.IsNewest t)
    (hσ : r.settings? = some σ) : σ = s.settings := by
  obtain ⟨j, hj⟩ := List.getElem?_of_mem hr
  have hc := (h.kept.isNewest_iff ((ticketAt?_of_getElem? hj).trans ht)).1 hnewest
  rcases h.latest r hr t σ ht hc hσ with heq | hspawned
  · exact heq
  · cases hidle _ hspawned

/-- **The latest settings win.**  From the opening of a session on, with any later notices and with
refreshes that go on in any order:

* the waiting time is that of the settings in force;
* settings that are not valid change nothing and spawn no refresh, and valid ones are put in force
  and spawn one;
* once all refreshes have ended, the newest one, if it has brought its rebuild to an end, has used
  the settings in force, and its selection is what these and some answers of the editor lead to. -/
theorem latest_settings_win {payload : Option Json}
    (h : Relation.ReflTransGen (Step Notice.IsLater)
      (({} : Server).notice (.opening payload)).1 s) :
    s.timeoutMs = s.settings.requestTimeoutMs ∧
    (∀ json, Settings.ofJson? json = none →
      (s.notice (.settingsChanged json)).1 = s ∧ (s.notice (.opening (some json))).1 = s) ∧
    (∀ json σ, Settings.ofJson? json = some σ →
      (s.notice (.settingsChanged json)).1 = (s.applySettings σ).spawn) ∧
    (s.Idle → ∀ t σ selection result,
      .finished t (.settled σ selection result) ∈ s.refreshes → s.IsNewest t →
        σ = s.settings ∧ (Inquiry.resolved selection).Arises s.settings) := by
  have hforce := (inForce_opening payload).steps h
  refine ⟨hforce.timeout, fun json hjson => ?_, fun json σ hjson => ?_, ?_⟩
  · simp only [Server.notice, Option.getD_some, hjson, and_self]
  · simp only [Server.notice, hjson]
  · intro hidle t σ selection result hmem hnewest
    obtain rfl := hforce.eq_settings_of_idle hidle hmem rfl hnewest rfl
    exact ⟨rfl, hforce.kept.grounded _ hmem⟩

/-- A session in which the refresh that was spawned first has started last.  It has cancelled the
other one, and has read settings that were not yet in force when it was spawned. -/
def reordered : Server :=
  { settings := { folderPath := some ['f'] }
    rebuilds :=
      { snapshot := ⟨1, {}⟩, generation := 2, state := .empty, current := 2, cancelled := [1, 0] }
    refreshes :=
      [.finished ⟨2, 2⟩ (.settled { folderPath := some ['f'] } none (.ok .notConfigured)),
        .finished ⟨1, 1⟩ .cancelled] }

theorem reordered_steps :
    Relation.ReflTransGen (Step Notice.IsLater) (({} : Server).notice (.opening none)).1
      reordered := by
  have hopened := (Relation.ReflTransGen.refl (r := Step Notice.IsLater)
    (a := (({} : Server).notice (.opening none)).1)).tail (.notice .opened trivial)
  have hchanged := hopened.tail (.notice (.settingsChanged (.arr [.str (some ['f'])])) trivial)
  have hsecond := hchanged.tail (.move (i := 1) (m := .begin) rfl)
  have hasks := hsecond.tail (.move (i := 1) (m := .inquire) rfl)
  have hfirst := hasks.tail (.move (i := 0) (m := .begin) rfl)
  have hreads := hfirst.tail (.move (i := 0) (m := .inquire) rfl)
  have hcancelled := hreads.tail (.move (i := 1) (m := .hear .cancelled) rfl)
  have hanswered := hcancelled.tail (.move (i := 0) (m := .hear (.answered .null)) rfl)
  have hloaded := hanswered.tail
    (.move (i := 0) (m := .load (fun _ => .ok none) (fun _ => .ok none)) rfl)
  have hpublished := hloaded.tail (.move (i := 0) (m := .publish) rfl)
  exact hpublished

theorem reordered_settings :
    Relation.ReflTransGen (Step Notice.IsLater) (({} : Server).notice (.opening none)).1 reordered ∧
      reordered.Idle ∧ reordered.IsNewest ⟨2, 2⟩ ∧
        (Inquiry.resolved none).Arises reordered.settings := by
  have hidle : reordered.Idle := by simp [Idle, reordered, Refresh.ended]
  have hnewest : reordered.IsNewest ⟨2, 2⟩ := by
    rintro (_ | _ | j) u hu <;> cases hu <;> decide
  obtain ⟨-, -, -, hlatest⟩ := latest_settings_win reordered_steps
  refine ⟨reordered_steps, hidle, hnewest, ?_⟩
  exact (hlatest hidle _ _ _ _ List.mem_cons_self hnewest).2

end Server

end OpcodeLens
