import OpcodeLens.Proofs.Rebuild.Course

/-!
# What is published, and by whom

Loads overlap, fail and are overtaken; still the published catalogue always has one plain
explanation, which can be read off the log of a course.

* `Log.latest` : the snapshot that the last publishing entry has left, with the number of
  publications as its stamp.
* `Log.Origin` : a catalogue is the empty one or what a single load of one selection has given.
* `Log.Proper` : every publishing entry has such a catalogue and the newest ticket of its time.
* `Course.snapshot_history` : **the snapshot of a course is the latest of its log**, its log is
  proper, the generations of successive publications never decrease, and a step that does not
  publish leaves the snapshot alone, and everything else too if its ticket is not the newest one.

Snapshots are the same object exactly if they have the same stamp, and every publication has a stamp
of its own.
-/

namespace OpcodeLens

namespace Rebuild

namespace Entry

/-- Was a catalogue published? -/
def publishes : Entry → Bool
  | .settled _ _ result => Rebuild.publishes result
  | _ => false

/-- The catalogue that a completion has to offer: the loaded one, or the empty one if nothing is
configured. -/
def offered : Entry → Catalogue
  | .settled _ (some (.ok cat)) _ => cat
  | _ => {}

theorem offered_settled {t : Ticket} {loaded : Option (Except LoadError Catalogue)}
    {result : Except LoadError Outcome} {cat : Catalogue}
    (h : loaded.getD (.ok {}) = .ok cat) : (Entry.settled t loaded result).offered = cat := by
  rcases loaded with - | e | cat'
  · cases h; rfl
  · cases h
  · cases h; rfl

end Entry

namespace Log

/-- The snapshot that the last publication has left. -/
def latest (log : Log) : Snapshot :=
  ⟨log.countP Entry.publishes, ((log.find? Entry.publishes).map Entry.offered).getD {}⟩

/-- The catalogue is empty, or it is the result of a single load of a completion of the ticket. -/
def Origin (log : Log) (t : Ticket) (cat : Catalogue) : Prop :=
  cat = {} ∨ ∃ selection readDefinitions readEnums,
    .loaded t (some selection) readDefinitions readEnums ∈ log ∧
      Catalogue.loadWith readDefinitions readEnums selection = .ok cat

/-- What every log has to do with its publications. -/
structure Proper (log : Log) : Prop where
  /-- All tickets were issued. -/
  tickets : ∀ e ∈ log, e.ticket ∈ log.issued
  /-- A publication has one origin, and its ticket was the newest one at the time. -/
  published : ∀ e earlier, e :: earlier <:+ log → e.publishes = true →
    Origin earlier e.ticket e.offered ∧ newest? earlier = some e.ticket
  /-- The generations of successive publications never decrease. -/
  ordered : ((log.filter Entry.publishes).map (·.ticket.generation)).Pairwise (· ≥ ·)

variable {log : Log} {e : Entry} {t : Ticket} {cat : Catalogue}

theorem latest_cons_of_publishes (h : e.publishes = true) :
    latest (e :: log) = ⟨log.latest.stamp + 1, e.offered⟩ := by
  simp [latest, h]

theorem latest_cons_of_not_publishes (h : e.publishes = false) :
    latest (e :: log) = log.latest := by
  simp [latest, h]

theorem Origin.cons (h : Origin log t cat) (e : Entry) : Origin (e :: log) t cat := by
  rcases h with h | ⟨selection, readDefinitions, readEnums, hmem, hload⟩
  · exact .inl h
  · exact .inr ⟨selection, readDefinitions, readEnums, List.mem_cons_of_mem _ hmem, hload⟩

theorem issued_subset_cons (e : Entry) : log.issued ⊆ issued (e :: log) := by
  intro t ht
  cases e with
  | begun u => rw [issued_begun]; exact List.mem_append_left _ ht
  | loaded | settled | abandoned => rwa [issued_cons rfl]

/-- A log stays proper if the next entry is about an issued ticket and publishes only what has an
origin, and only with a ticket that is the newest one. -/
theorem Proper.cons (h : log.Proper) (ht : e.ticket ∈ issued (e :: log))
    (hp : e.publishes = true → Origin log e.ticket e.offered ∧ log.newest? = some e.ticket ∧
      ∀ t ∈ log.issued, t.generation ≤ e.ticket.generation) : Proper (e :: log) where
  tickets := by
    intro x hx
    rcases List.mem_cons.1 hx with rfl | hx
    · exact ht
    · exact issued_subset_cons e (h.tickets x hx)
  published := by
    intro x earlier hx hpub
    -- the publication is the new entry, or it was there before with the same past
    rcases List.suffix_cons_iff.1 hx with heq | hx
    · obtain ⟨rfl, rfl⟩ := List.cons_eq_cons.1 heq
      exact ⟨(hp hpub).1, (hp hpub).2.1⟩
    · exact h.published x earlier hx hpub
  ordered := by
    cases hpub : e.publishes with
    | false => rw [List.filter_cons_of_neg (by simp [hpub])]; exact h.ordered
    | true =>
      rw [List.filter_cons_of_pos hpub, List.map_cons, List.pairwise_cons]
      refine ⟨fun n hn => ?_, h.ordered⟩
      obtain ⟨x, hx, rfl⟩ := List.mem_map.1 hn
      exact (hp hpub).2.2 _ (h.tickets x (List.mem_filter.1 hx).1)

end Log

namespace Course

variable {c c' : Course} {t : Ticket}

/-! ### The invariant -/

/-- What every course keeps about its publications. -/
structure Traced (c : Course) : Prop where
  /-- The log is proper. -/
  proper : c.log.Proper
  /-- What a completion is going to offer has an origin. -/
  loaded : ∀ t loaded cat, .loaded t loaded ∈ c.completions → loaded.getD (.ok {}) = .ok cat →
    c.log.Origin t cat
  /-- The snapshot is the latest one of the log. -/
  snapshot : c.service.snapshot = c.log.latest

theorem traced_fresh : Traced {} where
  proper := ⟨by simp, by simp, by simp⟩
  loaded := by simp
  snapshot := rfl

/-- A completion that has just loaded. -/
theorem origin_of_load {log : Log} {selection : Option Selection}
    {readDefinitions readEnums : Reader} {cat : Catalogue}
    (h : (selection.map (Catalogue.loadWith readDefinitions readEnums)).getD (.ok {}) = .ok cat) :
    Log.Origin (.loaded t selection readDefinitions readEnums :: log) t cat := by
  cases selection with
  | none => cases h; exact .inl rfl
  | some selection => exact .inr ⟨selection, _, _, List.mem_cons_self, h⟩

/-- An entry that does not publish. -/
theorem Traced.cons (h : c.Traced) {s : Service} {e : Entry} {left : List Completion}
    (ht : e.ticket ∈ Log.issued (e :: c.log)) (hp : e.publishes = false)
    (hs : s.snapshot = c.service.snapshot)
    (hl : ∀ t loaded cat, .loaded t loaded ∈ left → loaded.getD (.ok {}) = .ok cat →
      Log.Origin (e :: c.log) t cat) : Traced ⟨s, left, e :: c.log⟩ where
  proper := h.proper.cons ht fun hpub => by rw [hp] at hpub; cases hpub
  loaded := hl
  snapshot := by rw [Log.latest_cons_of_not_publishes hp, ← h.snapshot, hs]

theorem Traced.settle (h : c.Traced) (hk : c.Kept) {j : Nat}
    {loaded : Option (Except LoadError Catalogue)} {result : Except LoadError Outcome} {s : Service}
    (hj : c.completions[j]? = some (.loaded t loaded))
    (hs : c.service.Settlement t loaded result s) :
    Traced ⟨s, c.completions.eraseIdx j, .settled t loaded result :: c.log⟩ := by
  have hmem : .loaded t loaded ∈ c.completions := List.mem_of_getElem? hj
  have ht : t ∈ c.log.issued := hk.completions _ hmem
  have ht' : t ∈ Log.issued (.settled t loaded result :: c.log) := by rwa [Log.issued_cons rfl]
  have hleft : ∀ u l cat, .loaded u l ∈ c.completions.eraseIdx j → l.getD (.ok {}) = .ok cat →
      Log.Origin (.settled t loaded result :: c.log) u cat :=
    fun u l cat hx hl => (h.loaded u l cat (List.mem_of_mem_eraseIdx hx) hl).cons _
  cases hs with
  | superseded => exact h.cons ht' rfl rfl hleft
  | failed e => exact h.cons ht' rfl Service.abandon_snapshot hleft
  | published offered current done =>
    -- no issued ticket has a greater generation than the current one, which keeps the order
    have hi := hk.mem_issued_iff.1 ht
    refine ⟨h.proper.cons ht' fun _ => ⟨?_, ?_, fun u hu => ?_⟩, hleft, ?_⟩
    · rw [Entry.offered_settled offered]
      exact h.loaded t loaded _ hmem offered
    · exact hk.newest?_eq_some_iff.2 ⟨hi, current⟩
    · have hle := (hk.mem_issued_iff.1 hu).le
      rwa [Service.isCurrent_iff.1 current] at hle
    · rw [Log.latest_cons_of_publishes (e := .settled t loaded result) done,
        Entry.offered_settled offered, ← h.snapshot]
      rfl

/-- Every step keeps the publications explained. -/
theorem Traced.step (h : c.Traced) (hk : c.Kept) (hs : c.Step c') : c'.Traced := by
  cases hs with
  | begin =>
    refine h.cons ?_ rfl rfl fun u l cat hx hl => (h.loaded u l cat hx hl).cons _
    rw [Log.issued_begun]
    exact List.mem_append_right _ (List.mem_singleton_self _)
  | call ht selection =>
    refine ⟨h.proper, fun u l cat hx hl => ?_, h.snapshot⟩
    rcases List.mem_append.1 hx with hx | hx
    · exact h.loaded u l cat hx hl
    · cases List.mem_singleton.1 hx
  | @load j t selection hj readDefinitions readEnums =>
    have ht : t ∈ c.log.issued := hk.completions (.called t selection) (List.mem_of_getElem? hj)
    refine h.cons (by rwa [Log.issued_cons rfl]) rfl rfl fun u l cat hx hl => ?_
    rcases List.mem_or_eq_of_mem_set hx with hx | heq
    · exact (h.loaded u l cat hx hl).cons _
    · cases heq
      exact origin_of_load hl
  | settle hj => exact h.settle hk hj (c.service.settlement _ _)
  | abandon ht =>
    refine h.cons (by rwa [Log.issued_cons rfl]) rfl Service.abandon_snapshot ?_
    exact fun u l cat hx hl => (h.loaded u l cat hx hl).cons _

theorem Reached.traced (h : c.Reached) : c.Traced := by
  induction h with
  | refl => exact traced_fresh
  | tail hr hs ih => exact ih.step (Reached.kept hr) hs

/-! ### Steps that do not publish -/

/-- What a step leaves alone.  A step that enters nothing into the log does not touch the service;
one that does not publish keeps the very snapshot; and one whose ticket is neither new nor the
newest does not touch the service. -/
theorem Kept.step_unchanged (h : c.Kept) (hs : c.Step c') :
    (c'.service = c.service ∧ c'.log = c.log) ∨
    ∃ e, c'.log = e :: c.log ∧
      (e.publishes = false → c'.service.snapshot = c.service.snapshot) ∧
      (e.begun? = none → c.log.newest? ≠ some e.ticket → c'.service = c.service) := by
  have hstale : ∀ t ∈ c.log.issued, c.log.newest? ≠ some t → c.service.isCurrent t = false := by
    intro t ht hne
    rw [← Bool.not_eq_true]
    exact fun hc => hne (h.newest?_eq_some_iff.2 ⟨h.mem_issued_iff.1 ht, hc⟩)
  cases hs with
  | begin => exact .inr ⟨_, rfl, fun _ => rfl, nofun⟩
  | call ht selection => exact .inl ⟨rfl, rfl⟩
  | load hj readDefinitions readEnums => exact .inr ⟨_, rfl, fun _ => rfl, fun _ _ => rfl⟩
  | @settle j t loaded hj =>
    have hsettle := c.service.settlement t loaded
    have ht : t ∈ c.log.issued := h.completions (.loaded t loaded) (List.mem_of_getElem? hj)
    refine .inr ⟨_, rfl, hsettle.snapshot_of_not_publishes, fun _ hne => ?_⟩
    exact hsettle.eq_of_not_isCurrent (hstale t ht hne)
  | @abandon t ht =>
    refine .inr ⟨_, rfl, fun _ => Service.abandon_snapshot, fun _ hne => ?_⟩
    exact Service.abandon_of_not_isCurrent (hstale t ht hne)

/-- **The snapshot has one history.**  After any course of calls, with any files:

* the snapshot is the one that the last publication has left, or the first, empty one;
* what a publication has installed is the empty catalogue or the result of one load of one
  selection, and its ticket was the newest one at the time;
* the generations of successive publications, the last one first, never increase;
* a next step that does not publish leaves the snapshot the same object, and a call with a ticket
  that is not the newest one leaves the whole service as it is. -/
theorem snapshot_history (h : c.Reached) :
    c.service.snapshot = c.log.latest ∧
    (∀ e earlier, e :: earlier <:+ c.log → e.publishes = true →
      Log.Origin earlier e.ticket e.offered ∧ Log.newest? earlier = some e.ticket) ∧
    ((c.log.filter Entry.publishes).map (·.ticket.generation)).Pairwise (· ≥ ·) ∧
    ∀ c', c.Step c' →
      (c'.service = c.service ∧ c'.log = c.log) ∨
      ∃ e, c'.log = e :: c.log ∧
        (e.publishes = false → c'.service.snapshot = c.service.snapshot) ∧
        (e.begun? = none → c.log.newest? ≠ some e.ticket → c'.service = c.service) := by
  have ht := h.traced
  exact ⟨ht.snapshot, ht.proper.published, ht.proper.ordered,
    fun _ hs => h.kept.step_unchanged hs⟩

/-- A source with one enumeration gives a catalogue that is not empty. -/
theorem exists_load_enum :
    ∃ cat, Catalogue.loadWith (fun _ => .ok none) (fun _ => .ok (some "enum A x end".toList))
      ⟨[], [], []⟩ = .ok cat ∧ cat.isEmpty = false := by
  have h : ((Catalogue.loadWith (fun _ => .ok none) (fun _ => .ok (some "enum A x end".toList))
      ⟨[], [], []⟩).toOption.any fun cat => !cat.isEmpty) = true := by decide +kernel
  revert h
  cases Catalogue.loadWith (fun _ => .ok none) (fun _ => .ok (some "enum A x end".toList))
      ⟨[], [], []⟩ with
  | error e => nofun
  | ok cat => intro h; exact ⟨cat, rfl, by simpa [Except.toOption] using h⟩

/-- The newer of two rebuilds publishes an enumeration after the older one was superseded. -/
theorem overtaken_published :
    ∃ c cat, Reached c ∧ c.log.newest? = some ⟨2, 2⟩ ∧ c.service.snapshot = ⟨1, cat⟩ ∧
      cat.isEmpty = false ∧ Log.Origin c.log ⟨2, 2⟩ cat := by
  obtain ⟨cat, hload, hne⟩ := exists_load_enum
  have hcalled := overtaken_reached.tail (.call (t := ⟨2, 2⟩) (by decide) (some ⟨[], [], []⟩))
  have hloaded := hcalled.tail (.load (j := 0) rfl (fun _ => .ok none)
    (fun _ => .ok (some "enum A x end".toList)))
  rw [Option.map_some, hload] at hloaded
  have hsettled := hloaded.tail (.settle (j := 0) rfl)
  obtain ⟨hlatest, hpublished, -, -⟩ := snapshot_history hsettled
  obtain ⟨horigin, -⟩ := hpublished _ _ (List.suffix_refl _) rfl
  exact ⟨_, cat, hsettled, rfl, hlatest, hne, horigin.cons _⟩

end Course

end Rebuild

end OpcodeLens
