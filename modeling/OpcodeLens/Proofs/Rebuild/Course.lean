import OpcodeLens.Proofs.Rebuild.Service
import Mathlib.Logic.Relation

/-!
# Courses of rebuilds

Rebuilds overlap: while one of them loads, others start, publish or are given up.  A `Course` is a
service together with the completions that are under way and a log of what has happened.  `Step`
says what can happen next, and a course that is reached from the fresh one by such steps
(`Course.Reached`) may have taken them in any order, with any number of tickets, and with files that
change all the time: every load brings its own readers.

A completion takes two steps, the load and the end, and a ticket may be completed any number of
times.  Uninterrupted completions and rebuilds are the functions `Service.complete` and
`Service.rebuild` (`Course.reaches_complete`, `Course.reaches_rebuild`).

## Main results

* `Course.unresolved_cons` : what a log entry means for the newest ticket.
* `Course.Kept` : the invariant of courses, and `Course.Reached.kept` : all courses keep it.
* `Course.loading_tokens_generations` : the state of the service, its tokens and its tickets are
  what the log says.
-/

namespace OpcodeLens

namespace Rebuild

/-- Something that has happened to a service. -/
inductive Entry where
  /-- A ticket was issued. -/
  | begun (t : Ticket)
  /-- A completion of the ticket has loaded its selection, the definitions by one reader and the
  enumerations by another. -/
  | loaded (t : Ticket) (selection : Option Selection) (readDefinitions readEnums : Reader)
  /-- A completion of the ticket that has loaded this has ended with this result. -/
  | settled (t : Ticket) (loaded : Option (Except LoadError Catalogue))
      (result : Except LoadError Outcome)
  /-- The ticket was abandoned. -/
  | abandoned (t : Ticket)

namespace Entry

/-- The ticket that the entry is about. -/
def ticket : Entry → Ticket
  | .begun t => t
  | .loaded t _ _ _ => t
  | .settled t _ _ => t
  | .abandoned t => t

/-- The ticket that was issued. -/
def begun? : Entry → Option Ticket
  | .begun t => some t
  | _ => none

/-- The ticket that was resolved: its rebuild has published, has failed or was abandoned. -/
def resolved? : Entry → Option Ticket
  | .settled _ _ (.ok .superseded) => none
  | .settled t _ _ => some t
  | .abandoned t => some t
  | .begun _ => none
  | .loaded _ _ _ _ => none

theorem ticket_of_resolved? {e : Entry} {t : Ticket} (h : e.resolved? = some t) : e.ticket = t := by
  unfold resolved? at h
  split at h <;> cases h <;> rfl

end Entry

/-- What has happened to a service, the newest first. -/
abbrev Log := List Entry

namespace Log

/-- The tickets that were issued, in the order of issue. -/
def issued (log : Log) : List Ticket := (log.filterMap Entry.begun?).reverse

/-- The ticket that was issued last. -/
def newest? (log : Log) : Option Ticket := log.issued.getLast?

/-- A ticket was issued, and the one that was issued last has not been resolved since. -/
def Unresolved (log : Log) : Prop :=
  ∃ t later earlier, log = later ++ .begun t :: earlier ∧
    ∀ e ∈ later, e.begun? = none ∧ e.resolved? ≠ some t

variable {log : Log} {e : Entry} {t : Ticket}

theorem issued_begun : issued (.begun t :: log) = log.issued ++ [t] := by
  simp [issued, Entry.begun?]

theorem issued_cons (he : e.begun? = none) : issued (e :: log) = log.issued := by
  simp [issued, he]

theorem newest?_begun : newest? (.begun t :: log) = some t := by
  rw [newest?, issued_begun, List.getLast?_concat]

theorem newest?_cons (he : e.begun? = none) : newest? (e :: log) = log.newest? := by
  rw [newest?, issued_cons he, newest?]

theorem newest?_append {later : List Entry} (h : ∀ e ∈ later, e.begun? = none) :
    newest? (later ++ log) = log.newest? := by
  induction later with
  | nil => rfl
  | cons e later ih =>
    rw [List.cons_append, newest?_cons (h e List.mem_cons_self)]
    exact ih fun e he => h e (List.mem_cons_of_mem _ he)

theorem unresolved_begun : Unresolved (.begun t :: log) := ⟨t, [], log, rfl, by simp⟩

/-- An entry that issues no ticket leaves the newest ticket unresolved unless it resolves it. -/
theorem unresolved_cons (he : e.begun? = none) :
    Unresolved (e :: log) ↔
      log.Unresolved ∧ ∀ t, log.newest? = some t → e.resolved? ≠ some t := by
  constructor
  · rintro ⟨t, later, earlier, heq, hlater⟩
    cases later with
    | nil =>
      -- the new entry would be the one that has issued the ticket
      obtain ⟨rfl, -⟩ := List.cons_eq_cons.1 heq
      cases he
    | cons e' later =>
      rw [List.cons_append] at heq
      obtain ⟨rfl, rfl⟩ := List.cons_eq_cons.1 heq
      have hold : ∀ x ∈ later, x.begun? = none ∧ x.resolved? ≠ some t :=
        fun x hx => hlater x (List.mem_cons_of_mem _ hx)
      refine ⟨⟨t, later, earlier, rfl, hold⟩, fun u hu => ?_⟩
      rw [newest?_append fun x hx => (hold x hx).1, newest?_begun] at hu
      cases hu
      exact (hlater e List.mem_cons_self).2
  · rintro ⟨⟨t, later, earlier, rfl, hlater⟩, hnew⟩
    have ht : newest? (later ++ .begun t :: earlier) = some t := by
      rw [newest?_append fun x hx => (hlater x hx).1, newest?_begun]
    refine ⟨t, e :: later, earlier, rfl, fun x hx => ?_⟩
    rcases List.mem_cons.1 hx with rfl | hx
    · exact ⟨he, hnew t ht⟩
    · exact hlater x hx

end Log

/-- A completion that is under way. -/
inductive Completion where
  /-- It is going to load its selection. -/
  | called (t : Ticket) (selection : Option Selection)
  /-- It has loaded; there is nothing to load if nothing is configured. -/
  | loaded (t : Ticket) (loaded : Option (Except LoadError Catalogue))

/-- The ticket of a completion. -/
def Completion.ticket : Completion → Ticket
  | .called t _ => t
  | .loaded t _ => t

/-- A service with its completions and its history. -/
structure Course where
  /-- The service. -/
  service : Service := {}
  /-- The completions that are under way. -/
  completions : List Completion := []
  /-- What has happened. -/
  log : Log := []

namespace Course

/-- What can happen next. -/
inductive Step (c : Course) : Course → Prop
  /-- A rebuild starts. -/
  | begin : Step c
      { c with service := c.service.begin.2, log := .begun c.service.begin.1 :: c.log }
  /-- A completion of an issued ticket is called. -/
  | call {t : Ticket} (ht : t ∈ c.log.issued) (selection : Option Selection) : Step c
      { c with completions := c.completions ++ [.called t selection] }
  /-- A completion loads. -/
  | load {j : Nat} {t : Ticket} {selection : Option Selection}
      (hj : c.completions[j]? = some (.called t selection))
      (readDefinitions readEnums : Reader) : Step c
      { c with
        completions := c.completions.set j
          (.loaded t (selection.map (Catalogue.loadWith readDefinitions readEnums)))
        log := .loaded t selection readDefinitions readEnums :: c.log }
  /-- A completion ends. -/
  | settle {j : Nat} {t : Ticket} {loaded : Option (Except LoadError Catalogue)}
      (hj : c.completions[j]? = some (.loaded t loaded)) : Step c
      { service := (c.service.settle t loaded).2
        completions := c.completions.eraseIdx j
        log := .settled t loaded (c.service.settle t loaded).1 :: c.log }
  /-- An issued ticket is abandoned. -/
  | abandon {t : Ticket} (ht : t ∈ c.log.issued) : Step c
      { c with service := c.service.abandon t, log := .abandoned t :: c.log }

/-- Some steps lead from one course to another. -/
abbrev Reaches : Course → Course → Prop := Relation.ReflTransGen Step

/-- Some steps lead to the course from a fresh service. -/
abbrev Reached (c : Course) : Prop := Reaches {} c

variable {c c' : Course} {t : Ticket}

/-! ### Uninterrupted calls -/

/-- An uninterrupted completion is a run of three steps. -/
theorem reaches_complete (ht : t ∈ c.log.issued) (read : Reader) (selection : Option Selection) :
    ∃ c', c.Reaches c' ∧ c'.service = (c.service.complete read t selection).2 := by
  have hload : Step { c with completions := c.completions ++ [.called t selection] }
      { c with
        completions := c.completions ++ [.loaded t (selection.map (Catalogue.loadWith read read))]
        log := .loaded t selection read read :: c.log } := by
    have hj : (c.completions ++ [.called t selection])[c.completions.length]? =
        some (.called t selection) := by simp
    have h := Step.load (c := { c with completions := c.completions ++ [.called t selection] })
      hj read read
    rwa [List.set_append_right _ _ (Nat.le_refl _), Nat.sub_self, List.set_cons_zero] at h
  refine ⟨_, ((Relation.ReflTransGen.single (.call ht selection)).tail hload).tail
    (.settle (j := c.completions.length) (t := t)
      (List.getElem?_concat_length ..)), rfl⟩

/-- An uninterrupted rebuild is a run of four steps. -/
theorem reaches_rebuild (c : Course) (read : Reader) (selection : Option Selection) :
    ∃ c', c.Reaches c' ∧ c'.service = (c.service.rebuild read selection).2 := by
  have hbegin := Step.begin (c := c)
  obtain ⟨c', hr, hc'⟩ := reaches_complete
    (c := { c with service := c.service.begin.2, log := .begun c.service.begin.1 :: c.log })
    (t := c.service.begin.1) (by simp [Log.issued_begun]) read selection
  exact ⟨c', hr.head hbegin, hc'⟩

/-! ### The invariant -/

/-- What every course keeps. -/
structure Kept (c : Course) : Prop where
  /-- The service is sound. -/
  sound : c.service.Sound
  /-- The tickets are numbered from one in the order of issue, and so are their tokens. -/
  issued : c.log.issued = (List.range' 1 c.service.generation).map fun n => ⟨n, n⟩
  /-- Only issued tickets are completed. -/
  completions : ∀ x ∈ c.completions, x.ticket ∈ c.log.issued
  /-- The service is loading as long as the newest ticket is not resolved. -/
  loading : c.service.state = .loading ↔ c.log.Unresolved

theorem Kept.mem_issued_iff (h : c.Kept) : t ∈ c.log.issued ↔ c.service.Issued t := by
  rw [h.issued, List.mem_map]
  constructor
  · rintro ⟨n, hn, rfl⟩
    obtain ⟨hpos, hlt⟩ := List.mem_range'_1.1 hn
    exact ⟨rfl, hpos, by rw [Nat.add_comm] at hlt; exact Nat.le_of_lt_succ hlt⟩
  · intro ht
    have hle := ht.le
    have hpos := ht.pos
    exact ⟨t.generation, List.mem_range'_1.2 (by omega), ht.mk_generation⟩

theorem Kept.newest?_eq_some_iff (h : c.Kept) :
    c.log.newest? = some t ↔ c.service.Issued t ∧ c.service.isCurrent t = true := by
  rw [Log.newest?, h.issued, List.getLast?_map, List.getLast?_range', Service.isCurrent_iff]
  split_ifs with h0
  · constructor
    · rintro ⟨⟩
    · rintro ⟨ht, hg⟩
      have := ht.pos
      omega
  · have hn : 1 + c.service.generation - 1 = c.service.generation := by omega
    simp only [Option.map_some, Option.some.injEq, hn]
    constructor
    · rintro rfl
      exact ⟨⟨rfl, Nat.pos_of_ne_zero h0, Nat.le_refl _⟩, rfl⟩
    · rintro ⟨ht, hg⟩
      rw [hg, ht.mk_generation]

/-- An entry that resolves the newest ticket. -/
theorem Kept.not_unresolved (h : c.Kept) {e : Entry} (he : e.begun? = none)
    (ht : e.ticket ∈ c.log.issued) (hc : c.service.isCurrent e.ticket = true)
    (hr : e.resolved? = some e.ticket) : ¬ Log.Unresolved (e :: c.log) := by
  rw [Log.unresolved_cons he]
  rintro ⟨-, hnew⟩
  exact hnew e.ticket (h.newest?_eq_some_iff.2 ⟨h.mem_issued_iff.1 ht, hc⟩) hr

/-- An entry about a ticket that is not the newest one. -/
theorem Kept.unresolved_iff_of_stale (h : c.Kept) {e : Entry} (he : e.begun? = none)
    (hc : c.service.isCurrent e.ticket = false) :
    Log.Unresolved (e :: c.log) ↔ c.log.Unresolved := by
  rw [Log.unresolved_cons he, and_iff_left_iff_imp]
  intro _ t ht hr
  obtain rfl := Entry.ticket_of_resolved? hr
  have hcur := (h.newest?_eq_some_iff.1 ht).2
  rw [hc] at hcur
  cases hcur

/-- A call with an issued ticket keeps the invariant if it changes nothing unless the ticket is the
newest one, and resolves that one and brings the service to rest. -/
theorem Kept.resolve (h : c.Kept) {s : Service} {e : Entry} {left : List Completion}
    (he : e.begun? = none) (ht : e.ticket ∈ c.log.issued)
    (hstale : c.service.isCurrent e.ticket = false → s = c.service)
    (hcur : c.service.isCurrent e.ticket = true →
      (∃ p, s = c.service.rested p) ∧ e.resolved? = some e.ticket)
    (hleft : left ⊆ c.completions) : Kept ⟨s, left, e :: c.log⟩ := by
  have hleft' : ∀ x ∈ left, x.ticket ∈ Log.issued (e :: c.log) := by
    intro x hx
    rw [Log.issued_cons he]
    exact h.completions x (hleft hx)
  cases hc : c.service.isCurrent e.ticket with
  | false =>
    -- the entry is logged, but it says nothing about the newest ticket
    obtain rfl := hstale hc
    refine ⟨h.sound, (Log.issued_cons he).trans h.issued, hleft', ?_⟩
    rw [h.unresolved_iff_of_stale he hc]
    exact h.loading
  | true =>
    obtain ⟨⟨p, rfl⟩, hr⟩ := hcur hc
    refine ⟨h.sound.rested p, (Log.issued_cons he).trans h.issued, hleft', ?_⟩
    exact iff_of_false (Service.rested_state_ne_loading p) (h.not_unresolved he ht hc hr)

theorem settled_resolved? {s s' : Service} {loaded : Option (Except LoadError Catalogue)}
    {result : Except LoadError Outcome} (h : s.Settlement t loaded result s')
    (hc : s.isCurrent t = true) : (Entry.settled t loaded result).resolved? = some t := by
  cases h with
  | superseded _ stale => rw [hc] at stale; cases stale
  | failed e => rfl
  | @published _ _ result _ _ done =>
    match result, done with
    | .ok (.published _ _ _), _ => rfl
    | .ok .notConfigured, _ => rfl

theorem kept_fresh : Kept {} where
  sound := Service.sound_fresh
  issued := rfl
  completions := by simp
  loading := by
    refine iff_of_false (by simp) ?_
    rintro ⟨t, later, earlier, heq, -⟩
    simp at heq

/-- Every step keeps the invariant. -/
theorem Kept.step (h : c.Kept) (hs : c.Step c') : c'.Kept := by
  cases hs with
  | begin =>
    refine ⟨h.sound.begin, ?_, fun x hx => ?_, iff_of_true rfl Log.unresolved_begun⟩
    · rw [Log.issued_begun, h.issued]
      simp [Service.begin, h.sound.current, List.range'_1_concat, Nat.add_comm]
    · rw [Log.issued_begun]
      exact List.mem_append_left _ (h.completions x hx)
  | call ht selection =>
    refine ⟨h.sound, h.issued, fun x hx => ?_, h.loading⟩
    rcases List.mem_append.1 hx with hx | hx
    · exact h.completions x hx
    · obtain rfl := List.mem_singleton.1 hx
      exact ht
  | load hj readDefinitions readEnums =>
    refine ⟨h.sound, (Log.issued_cons rfl).trans h.issued, fun x hx => ?_, ?_⟩
    · rw [Log.issued_cons rfl]
      rcases List.mem_or_eq_of_mem_set hx with hx | rfl
      · exact h.completions x hx
      · exact h.completions (.called _ _) (List.mem_of_getElem? hj)
    · rw [Log.unresolved_cons rfl, h.loading]
      exact ⟨fun hu => ⟨hu, fun t _ => by simp [Entry.resolved?]⟩, And.left⟩
  | @settle j t loaded hj =>
    have hsettle := c.service.settlement t loaded
    have ht : t ∈ c.log.issued := h.completions (.loaded t loaded) (List.mem_of_getElem? hj)
    exact h.resolve rfl ht hsettle.eq_of_not_isCurrent
      (fun hc => ⟨hsettle.rested_of_isCurrent hc, settled_resolved? hsettle hc⟩)
      List.eraseIdx_subset
  | abandon ht =>
    exact h.resolve rfl ht Service.abandon_of_not_isCurrent
      (fun hc => ⟨⟨_, Service.abandon_of_isCurrent hc⟩, rfl⟩) (List.Subset.refl _)

/-- **Every course keeps the invariant.** -/
theorem Reached.kept (h : c.Reached) : c.Kept := by
  induction h with
  | refl => exact kept_fresh
  | tail _ hs ih => exact ih.step hs

/-! ### State, tokens and tickets -/

/-- **The service follows its newest ticket.**  After any course of calls, the service is loading
exactly if some ticket was issued and the newest one has not been resolved since; a service that is
not loading says whether its snapshot is empty; a token is cancelled exactly if its ticket is not
the newest one; and the tickets are numbered 1, 2, 3, … in the order of issue. -/
theorem loading_tokens_generations (h : c.Reached) :
    (c.service.state = .loading ↔ c.log.Unresolved) ∧
    (c.service.state ≠ .loading →
      c.service.state = if c.service.snapshot.catalogue.isEmpty then .empty else .ready) ∧
    (∀ t ∈ c.log.issued, c.service.isCancelled t.token = true ↔ c.log.newest? ≠ some t) ∧
    c.log.issued.map (·.generation) = List.range' 1 c.log.issued.length := by
  have hk := h.kept
  refine ⟨hk.loading, hk.sound.rest, fun t ht => ?_, ?_⟩
  · have hi := hk.mem_issued_iff.1 ht
    rw [Service.isCancelled_iff hk.sound hi, ne_eq, hk.newest?_eq_some_iff, not_and,
      Bool.not_eq_true]
    exact ⟨fun hc _ => hc, fun hc => hc hi⟩
  · rw [hk.issued, List.length_map, List.length_range', List.map_map]
    exact List.map_id _

/-- A rebuild that is completed only after a newer one has begun. -/
def overtaken : Course where
  service := ({} : Service).begin.2.begin.2
  log := [.settled ⟨1, 1⟩ none (.ok .superseded),
    .loaded ⟨1, 1⟩ none (fun _ => .ok none) (fun _ => .ok none), .begun ⟨2, 2⟩, .begun ⟨1, 1⟩]

theorem overtaken_reached : overtaken.Reached := by
  have hbegun := (Relation.ReflTransGen.single (Step.begin (c := {}))).tail .begin
  have hcalled := hbegun.tail (.call (t := ⟨1, 1⟩) (by decide) none)
  have hloaded := hcalled.tail (.load (j := 0) rfl (fun _ => .ok none) (fun _ => .ok none))
  have hsettled := hloaded.tail (.settle (j := 0) rfl)
  exact hsettled

theorem overtaken_loading :
    overtaken.Reached ∧ overtaken.log.Unresolved ∧
      overtaken.service.isCancelled 1 = true ∧ overtaken.service.isCancelled 2 = false := by
  obtain ⟨hloading, -, htokens, -⟩ := loading_tokens_generations overtaken_reached
  refine ⟨overtaken_reached, hloading.1 rfl, (htokens ⟨1, 1⟩ (by decide)).2 (by decide), ?_⟩
  rw [← Bool.not_eq_true, htokens ⟨2, 2⟩ (by decide)]
  decide

end Course

end Rebuild

end OpcodeLens
