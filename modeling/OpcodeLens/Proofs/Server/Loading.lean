import OpcodeLens.Proofs.Server.Change

/-!
# The server does not stay loading

A refresh that has been cancelled ends without a word to the rebuild service.  That leaves nothing
undone, because only a newer refresh cancels it, and the newest refresh ends its rebuild whatever
becomes of its requests and its sources.

* `Server.Kept` : the invariant.  The newest ticket belongs to some refresh, and as long as the
  service is loading that refresh has not ended.
* `Server.Kept.isNewest_iff` : the newest ticket among the refreshes is the newest one of the
  service.
* `Server.Kept.exists_move` : a refresh that has not ended can go on.  As every step leaves fewer
  steps to take (`Server.stepsLeft_lt_of_move`), all refreshes come to an end
  (`Server.Kept.exists_idle`).
* `Server.not_stuck_loading` : **the server is never stuck in loading.**
-/

namespace OpcodeLens

namespace Server

variable {s s' : Server} {i : Nat} {m : Move} {sent : List Outgoing} {t : Rebuild.Ticket}
  {before after : Refresh} {service : Rebuild.Service} {expected : Notice → Prop}

/-! ### The invariant -/

/-- A refresh with the newest ticket has not ended. -/
def NewestUnderWay (s : Server) : Prop :=
  ∃ (j : Nat) (r : Refresh) (t : Rebuild.Ticket), s.refreshes[j]? = some r ∧ r.ended = false ∧
    r.ticket? = some t ∧ s.rebuilds.isCurrent t = true

/-- What every server keeps, whatever its refreshes do. -/
structure Kept (s : Server) : Prop where
  /-- The rebuild service is sound. -/
  sound : s.rebuilds.Sound
  /-- The tickets of refreshes are issued. -/
  issued : ∀ j t, s.ticketAt? j = some t → s.rebuilds.Issued t
  /-- The newest ticket belongs to a refresh. -/
  newest : 0 < s.rebuilds.generation →
    ∃ j t, s.ticketAt? j = some t ∧ s.rebuilds.isCurrent t = true
  /-- As long as the service is loading, a refresh with the newest ticket has not ended. -/
  loading : s.rebuilds.state = .loading → s.NewestUnderWay
  /-- What refreshes ask and load has been found out under the settings that they have read. -/
  grounded : ∀ r ∈ s.refreshes, r.Grounded

theorem kept_fresh : Kept {} where
  sound := Rebuild.Service.sound_fresh
  issued := by
    intro j t ht
    cases ht
  newest := fun hg => absurd hg (Nat.lt_irrefl 0)
  loading := nofun
  grounded := by
    intro r hr
    cases hr

/-! ### Notices -/

theorem getElem?_notice {n : Notice} {j : Nat} {r : Refresh} (h : s.refreshes[j]? = some r) :
    (s.notice n).1.refreshes[j]? = some r := by
  rcases s.notice_refreshes n with hn | hn
  · rw [hn, h]
  · obtain ⟨hj, -⟩ := List.getElem?_eq_some_iff.1 h
    rw [hn, List.getElem?_append_left hj, h]

theorem mem_or_eq_of_mem_notice {n : Notice} {r : Refresh} (h : r ∈ (s.notice n).1.refreshes) :
    r ∈ s.refreshes ∨ r = .spawned := by
  rcases s.notice_refreshes n with hn | hn
  · rw [hn] at h
    exact .inl h
  · rw [hn, List.mem_append, List.mem_singleton] at h
    exact h

theorem Kept.notice (h : s.Kept) (n : Notice) : (s.notice n).1.Kept where
  sound := by
    rw [notice_rebuilds]
    exact h.sound
  issued := by
    intro j t ht
    rw [ticketAt?_notice] at ht
    rw [notice_rebuilds]
    exact h.issued j t ht
  newest := by
    simp only [notice_rebuilds, ticketAt?_notice]
    exact h.newest
  loading := by
    rw [notice_rebuilds]
    intro hl
    obtain ⟨j, r, t, hj, hr, ht, hc⟩ := h.loading hl
    refine ⟨j, r, t, getElem?_notice hj, hr, ht, ?_⟩
    rw [notice_rebuilds]
    exact hc
  grounded := by
    intro r hr
    rcases mem_or_eq_of_mem_notice hr with hr | rfl
    · exact h.grounded r hr
    · trivial

/-! ### Steps of refreshes -/

theorem getElem?_changed_self (hi : s.refreshes[i]? = some before) :
    (s.changed i after service).refreshes[i]? = some after := by
  rw [getElem?_changed hi, if_pos rfl]

theorem ticketAt?_changed_of_eq (hi : s.refreshes[i]? = some before)
    (ht : after.ticket? = before.ticket?) (j : Nat) :
    (s.changed i after service).ticketAt? j = s.ticketAt? j := by
  rw [ticketAt?_changed hi]
  split_ifs with hj
  · rw [hj, ht, ticketAt?_of_getElem? hi]
  · rfl

theorem Kept.grounded_changed (h : s.Kept) (hi : s.refreshes[i]? = some before)
    (hc : Change s i before after service sent) :
    ∀ r ∈ (s.changed i after service).refreshes, r.Grounded := by
  intro r hr
  rcases List.mem_or_eq_of_mem_set hr with hr | rfl
  · exact h.grounded r hr
  · exact hc.grounded (h.grounded before (List.mem_of_getElem? hi))

/-- A refresh that takes a ticket has the newest one from then on. -/
theorem Kept.begin (h : s.Kept) (hi : s.refreshes[i]? = some .spawned) :
    (s.changed i (.begun s.rebuilds.begin.1) s.rebuilds.begin.2).Kept where
  sound := h.sound.begin
  issued := by
    intro j t ht
    rw [ticketAt?_changed hi] at ht
    split_ifs at ht with hj
    · cases ht
      exact h.sound.issued_begin
    · exact (h.issued j t ht).mono (Nat.le_succ _)
  newest := fun _ => ⟨i, s.rebuilds.begin.1, ticketAt?_of_getElem? (getElem?_changed_self hi),
    Rebuild.Service.isCurrent_iff.2 rfl⟩
  loading := fun _ => ⟨i, _, s.rebuilds.begin.1, getElem?_changed_self hi, rfl, rfl,
    Rebuild.Service.isCurrent_iff.2 rfl⟩
  grounded := h.grounded_changed hi .begin

/-- A refresh that goes on with its ticket leaves all tickets as they are. -/
theorem Kept.carry (h : s.Kept) (hi : s.refreshes[i]? = some before)
    (hc : Change s i before after service sent) (ht : after.ticket? = before.ticket?)
    (hsound : service.Sound) (hgen : service.generation = s.rebuilds.generation)
    (hloading : service.state = .loading → (s.changed i after service).NewestUnderWay) :
    (s.changed i after service).Kept where
  sound := hsound
  issued := by
    intro j u hu
    rw [ticketAt?_changed_of_eq hi ht] at hu
    exact (h.issued j u hu).mono (Nat.le_of_eq hgen.symm)
  newest := by
    intro hg
    obtain ⟨j, u, hu, huc⟩ := h.newest (hgen ▸ hg)
    refine ⟨j, u, (ticketAt?_changed_of_eq hi ht j).trans hu, ?_⟩
    exact Rebuild.Service.isCurrent_iff.2 (hgen.trans (Rebuild.Service.isCurrent_iff.1 huc))
  loading := hloading
  grounded := h.grounded_changed hi hc

/-- The newest refresh stays under way as long as the service is left alone and no refresh ends that
has the newest ticket. -/
theorem NewestUnderWay.changed (h : s.NewestUnderWay) (hi : s.refreshes[i]? = some before)
    (hb : before.ticket? = some t) (ha : after.ticket? = some t)
    (hend : after.ended = true → s.rebuilds.isCurrent t = false) :
    (s.changed i after s.rebuilds).NewestUnderWay := by
  obtain ⟨j, r, u, hj, hr, hu, huc⟩ := h
  by_cases hji : j = i
  · -- the newest refresh is the one that goes on, so that it cannot have ended
    subst hji
    obtain rfl : before = r := Option.some.inj (hi.symm.trans hj)
    obtain rfl : t = u := Option.some.inj (hb.symm.trans hu)
    refine ⟨j, after, t, getElem?_changed_self hi, ?_, ha, huc⟩
    rw [← Bool.not_eq_true]
    intro he
    rw [hend he] at huc
    cases huc
  · refine ⟨j, r, u, ?_, hr, hu, huc⟩
    rw [getElem?_changed hi, if_neg hji]
    exact hj

theorem Kept.changed (h : s.Kept) (hi : s.refreshes[i]? = some before)
    (hc : Change s i before after service sent) : (s.changed i after service).Kept := by
  have hissued : ∀ t, before.ticket? = some t → s.rebuilds.Issued t :=
    fun t ht => h.issued i t ((ticketAt?_of_getElem? hi).trans ht)
  rcases hc.effect h.sound hissued with ⟨rfl, rfl, rfl⟩ | ⟨t, hb, ha, heffect⟩
  · exact h.begin hi
  · have ht : after.ticket? = before.ticket? := ha.trans hb.symm
    rcases heffect with ⟨rfl, hend⟩ | ⟨-, p, rfl⟩
    · refine h.carry hi hc ht h.sound rfl fun hl => ?_
      exact (h.loading hl).changed hi hb ha hend
    · refine h.carry hi hc ht (h.sound.rested p) rfl fun hl => ?_
      exact absurd hl (Rebuild.Service.rested_state_ne_loading p)

theorem Kept.step (h : s.Kept) (hs : Step expected s s') : s'.Kept := by
  cases hs with
  | notice n _ => exact h.notice n
  | move hm =>
    obtain ⟨before, after, service, hi, hc, rfl⟩ := change_of_move hm
    exact h.changed hi hc

theorem Reached.kept (h : s.Reached) : s.Kept := by
  induction h with
  | refl => exact kept_fresh
  | tail _ hstep ih => exact ih.step hstep

/-! ### The newest refresh -/

/-- The newest ticket among the refreshes is the newest one of the service. -/
theorem Kept.isNewest_iff (h : s.Kept) {j : Nat} (ht : s.ticketAt? j = some t) :
    s.IsNewest t ↔ s.rebuilds.isCurrent t = true := by
  have hi := h.issued j t ht
  rw [Rebuild.Service.isCurrent_iff]
  constructor
  · intro hn
    obtain ⟨k, u, hu, huc⟩ := h.newest (Nat.lt_of_lt_of_le hi.pos hi.le)
    have hle := hn k u hu
    rw [← Rebuild.Service.isCurrent_iff.1 huc] at hle
    exact Nat.le_antisymm hle hi.le
  · intro hg k u hu
    rw [← hg]
    exact (h.issued k u hu).le

theorem Change.isCancelled_of_cancelled
    (h : Change s i before (.finished t .cancelled) service sent) :
    before.ticket? = some t ∧ s.rebuilds.isCancelled t.token = true := by
  cases h with
  | inquire hleads =>
    cases hleads.ticket?
    exact ⟨rfl, hleads.isCancelled_of_ended rfl⟩
  | answer _ _ _ hleads =>
    cases hleads.ticket?
    exact ⟨rfl, hleads.isCancelled_of_ended rfl⟩
  | cancel hc => exact ⟨rfl, hc⟩

/-- A refresh that ends as cancelled is not the newest one. -/
theorem Kept.not_isNewest_of_cancelled (h : s.Kept) (hm : s.move i m = some (s', sent))
    (hs' : s'.refreshes[i]? = some (.finished t .cancelled)) : ¬ s.IsNewest t := by
  obtain ⟨before, after, service, hi, hc, rfl⟩ := change_of_move hm
  rw [getElem?_changed_self hi] at hs'
  cases hs'
  obtain ⟨hb, hcancelled⟩ := hc.isCancelled_of_cancelled
  have ht : s.ticketAt? i = some t := (ticketAt?_of_getElem? hi).trans hb
  rw [h.isNewest_iff ht, Bool.not_eq_true]
  exact (Rebuild.Service.isCancelled_iff h.sound (h.issued i t ht)).1 hcancelled

/-- Once all refreshes have ended, nothing is loading. -/
theorem Kept.not_loading_of_idle (h : s.Kept) (hidle : s.Idle) : s.rebuilds.state ≠ .loading := by
  intro hl
  obtain ⟨j, r, t, hj, hr, -, -⟩ := h.loading hl
  rw [hidle r (List.mem_of_getElem? hj)] at hr
  cases hr

/-! ### Refreshes come to an end -/

/-- A refresh that has not ended can go on: if all else fails, its request times out. -/
theorem Kept.exists_move (h : s.Kept) {r : Refresh} (hi : s.refreshes[i]? = some r)
    (hr : r.ended = false) : ∃ m, (s.move i m).isSome = true := by
  cases r with
  | spawned => exact ⟨.begin, by simp only [move, hi, Option.isSome_some]⟩
  | begun t => exact ⟨.inquire, by simp only [move, hi, Option.isSome_some]⟩
  | asking t settings inquiry ms =>
    obtain ⟨hasks, -⟩ := h.grounded _ (List.mem_of_getElem? hi)
    obtain ⟨q, hq⟩ := Option.isSome_iff_exists.1 hasks
    cases hc : s.rebuilds.isCancelled t.token with
    | true => exact ⟨.hear .cancelled, by simp only [move, hi, hq, hc, if_true, Option.isSome_some]⟩
    | false => exact ⟨.hear .timedOut, by simp only [move, hi, hq, hc, if_true, Option.isSome_some]⟩
  | resolved t settings selection =>
    exact ⟨.load (fun _ => .ok none) (fun _ => .ok none),
      by simp only [move, hi, Option.isSome_some]⟩
  | loaded t settings selection result =>
    exact ⟨.publish, by simp only [move, hi, Option.isSome_some]⟩
  | finished t report => cases hr

/-- Without further notices, the refreshes can always go on until all have ended. -/
theorem Kept.exists_idle (h : s.Kept) :
    ∃ s', Relation.ReflTransGen (Step fun _ => False) s s' ∧ s'.Idle := by
  -- by induction on the steps left, as some refresh can go on until all have ended
  induction hn : s.stepsLeft using Nat.strongRecOn generalizing s with
  | _ n ih =>
    by_cases hidle : s.Idle
    · exact ⟨s, .refl, hidle⟩
    · simp only [Idle, not_forall] at hidle
      obtain ⟨r, hr, hended⟩ := hidle
      obtain ⟨i, hi⟩ := List.getElem?_of_mem hr
      obtain ⟨m, hsome⟩ := h.exists_move hi (eq_false_of_ne_true hended)
      obtain ⟨⟨s', sent⟩, hm⟩ := Option.isSome_iff_exists.1 hsome
      have hkept : s'.Kept := h.step (.move hm : Step (fun _ => False) s s')
      have hlt : s'.stepsLeft < n := hn ▸ stepsLeft_lt_of_move hm
      obtain ⟨last, hsteps, hlast⟩ := ih _ hlt hkept rfl
      exact ⟨last, .head (.move hm) hsteps, hlast⟩

/-- **The server is never stuck in loading.**  Whatever notices have come and in whatever order its
refreshes have gone on, as soon as all of them have ended nothing is loading, and the server is
ready exactly if the published catalogue is not empty.  A refresh that ends as cancelled is not the
newest one at that time.  And all refreshes can come to an end. -/
theorem not_stuck_loading (h : s.Reached) :
    (s.Idle → s.rebuilds.state ≠ .loading ∧
      (s.rebuilds.state = .ready ↔ s.catalogue.isEmpty = false)) ∧
    (∀ i m s' sent t, s.move i m = some (s', sent) →
      s'.refreshes[i]? = some (.finished t .cancelled) → ¬ s.IsNewest t) ∧
    ∃ s', Relation.ReflTransGen (Step fun _ => False) s s' ∧ s'.Idle := by
  have hkept := h.kept
  refine ⟨fun hidle => ?_, ?_, hkept.exists_idle⟩
  · have hl := hkept.not_loading_of_idle hidle
    exact ⟨hl, hkept.sound.state_eq_ready_iff hl⟩
  · intro i m s' sent t hm hs'
    exact hkept.not_isNewest_of_cancelled hm hs'

/-- A server with two refreshes.  Both have asked for the folder, and the second one has begun after
the first one had asked. -/
def waiting : Server :=
  { rebuilds := { generation := 2, state := .loading, current := 2, cancelled := [1, 0] }
    refreshes := [.asking ⟨1, 1⟩ {} .askFolder 5000, .asking ⟨2, 2⟩ {} .askFolder 5000] }

/-- The same server after the first refresh was cancelled and the second one had no answer. -/
def forsaken : Server :=
  { rebuilds := { generation := 2, state := .empty, current := 2, cancelled := [1, 0] }
    refreshes := [.finished ⟨1, 1⟩ .cancelled,
      .finished ⟨2, 2⟩ (.skipped (.timedOut (Request.getStored .folderPath).method 5000))] }

theorem waiting_reached : waiting.Reached := by
  have hfirst : Reached _ := Relation.ReflTransGen.refl.tail (.notice .opened trivial)
  have hsecond := hfirst.tail (.notice .opened trivial)
  have hbegin := hsecond.tail (.move (i := 0) (m := .begin) rfl)
  have hask := hbegin.tail (.move (i := 0) (m := .inquire) rfl)
  have hovertake := hask.tail (.move (i := 1) (m := .begin) rfl)
  have hwait := hovertake.tail (.move (i := 1) (m := .inquire) rfl)
  exact hwait

theorem forsaken_reached : forsaken.Reached := by
  have hcancelled := waiting_reached.tail (.move (i := 0) (m := .hear .cancelled) rfl)
  have hended := hcancelled.tail (.move (i := 1) (m := .hear .timedOut) rfl)
  exact hended

theorem forsaken_not_loading :
    (waiting.Reached ∧ waiting.rebuilds.state = .loading ∧ ¬ waiting.IsNewest ⟨1, 1⟩) ∧
      forsaken.Reached ∧ forsaken.Idle ∧ forsaken.rebuilds.state ≠ .loading := by
  obtain ⟨-, hcancelled, -⟩ := not_stuck_loading waiting_reached
  obtain ⟨hidle, -, -⟩ := not_stuck_loading forsaken_reached
  have hended : forsaken.Idle := by simp [Idle, forsaken, Refresh.ended]
  refine ⟨⟨waiting_reached, rfl, ?_⟩, forsaken_reached, hended, (hidle hended).1⟩
  exact hcancelled 0 (.hear .cancelled) _ _ ⟨1, 1⟩ rfl rfl

end Server

end OpcodeLens
