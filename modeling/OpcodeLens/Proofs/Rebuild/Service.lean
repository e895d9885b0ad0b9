import OpcodeLens.Rebuild.Basic
import Mathlib.Tactic.Common

/-!
# The rebuild service, call by call

What one call does to a rebuild service, said once for all that follows.

* `Service.Sound` : what holds of a service at all times.  Tokens are numbered like rebuilds, the
  tokens before the newest one are the cancelled ones, and a service that is not loading says by
  its state whether the published catalogue is empty.
* `Service.Issued` : the tickets that a service can have issued.
* `Service.isCancelled_iff` : the token of an issued ticket is cancelled exactly if the ticket is
  not the newest one.
* `Service.Settlement` : the three ways in which a rebuild can end, and `Service.settlement` :
  there is no other.  `Service.settle_of_not_isCurrent` : how a rebuild ends that is overtaken.
* `Service.begin_abandon`, `Service.settle_abandon` : **giving up a rebuild can be put off** until
  other rebuilds have begun or ended, or done before that.

Only `begin` changes tickets and tokens.  All other calls leave the service as it is or bring it to
rest (`Service.rested`), and they do the latter exactly if the ticket is the newest one.
-/

namespace OpcodeLens

namespace Rebuild

/-- Has a rebuild with this result published a catalogue? -/
def publishes : Except LoadError Outcome → Bool
  | .ok (.published _ _ _) => true
  | .ok .notConfigured => true
  | .ok .superseded => false
  | .error _ => false

/-- The result of a rebuild that has been overtaken, by what it has loaded. -/
def overtakenResult : Option (Except LoadError Catalogue) → Except LoadError Outcome
  | some (.error e) => .error e
  | _ => .ok .superseded

/-- Only a failure to load is not answered by `superseded`. -/
theorem overtakenResult_eq_superseded_iff {loaded : Option (Except LoadError Catalogue)} :
    overtakenResult loaded = .ok .superseded ↔ ∀ e, loaded ≠ some (.error e) := by
  rcases loaded with - | e | cat <;> simp [overtakenResult]

namespace Service

variable {s s' : Service} {t : Ticket}

/-! ### Rest -/

theorem restState_ne_loading (cat : Catalogue) : restState cat ≠ .loading := by
  unfold restState
  split_ifs <;> simp

theorem restState_eq_ready_iff {cat : Catalogue} :
    restState cat = .ready ↔ cat.isEmpty = false := by
  unfold restState
  split_ifs with h <;> simp [h]

/-- The service at rest with the given snapshot. -/
def rested (s : Service) (snapshot : Snapshot) : Service :=
  { s with state := restState snapshot.catalogue, snapshot := snapshot }

theorem rested_state_ne_loading (p : Snapshot) : (s.rested p).state ≠ .loading :=
  restState_ne_loading p.catalogue

/-! ### Calls -/

theorem isCurrent_iff : s.isCurrent t = true ↔ s.generation = t.generation := by
  simp [isCurrent]

theorem abandon_of_isCurrent (h : s.isCurrent t = true) : s.abandon t = s.rested s.snapshot := by
  simp [abandon, h, rested]

theorem abandon_of_not_isCurrent (h : s.isCurrent t = false) : s.abandon t = s := by
  simp [abandon, h]

theorem abandon_snapshot : (s.abandon t).snapshot = s.snapshot := by
  unfold abandon
  split_ifs <;> rfl

/-- What the end of a rebuild can be: the result and the service afterwards, by what the rebuild has
loaded.  A rebuild that has nothing to load offers the empty catalogue. -/
inductive Settlement (s : Service) (t : Ticket) :
    Option (Except LoadError Catalogue) → Except LoadError Outcome → Service → Prop
  /-- There is a newer rebuild, and what was loaded is dropped. -/
  | superseded {loaded : Option (Except LoadError Catalogue)} {cat : Catalogue}
      (offered : loaded.getD (.ok {}) = .ok cat) (stale : s.isCurrent t = false) :
      Settlement s t loaded (.ok .superseded) s
  /-- Loading has failed. -/
  | failed (e : LoadError) : Settlement s t (some (.error e)) (.error e) (s.abandon t)
  /-- What was loaded is published, as a new object. -/
  | published {loaded : Option (Except LoadError Catalogue)} {cat : Catalogue}
      {result : Except LoadError Outcome} (offered : loaded.getD (.ok {}) = .ok cat)
      (current : s.isCurrent t = true) (done : publishes result = true) :
      Settlement s t loaded result (s.rested ⟨s.snapshot.stamp + 1, cat⟩)

theorem settlement (s : Service) (t : Ticket) (loaded : Option (Except LoadError Catalogue)) :
    Settlement s t loaded (s.settle t loaded).1 (s.settle t loaded).2 := by
  -- whether the rebuild publishes is up to its ticket, unless loading has failed
  rcases loaded with - | e | cat
  · cases h : s.isCurrent t with
    | false =>
      have hs : s.settle t none = (.ok .superseded, s) := by simp [settle, publish, h]
      rw [hs]
      exact .superseded rfl h
    | true =>
      have hs : s.settle t none = (.ok .notConfigured, s.rested ⟨s.snapshot.stamp + 1, {}⟩) := by
        simp [settle, publish, h, rested]
      rw [hs]
      exact .published rfl h rfl
  · exact .failed e
  · cases h : s.isCurrent t with
    | false =>
      have hs : s.settle t (some (.ok cat)) = (.ok .superseded, s) := by
        simp [settle, publish, h]
      rw [hs]
      exact .superseded rfl h
    | true =>
      have hs : s.settle t (some (.ok cat)) =
          (.ok (.published cat.byName.size cat.byClass.size cat.enums.size),
            s.rested ⟨s.snapshot.stamp + 1, cat⟩) := by
        simp [settle, publish, h, rested]
      rw [hs]
      exact .published rfl h rfl

namespace Settlement

variable {loaded : Option (Except LoadError Catalogue)} {result : Except LoadError Outcome}

/-- A ticket that is not the newest one changes nothing. -/
theorem eq_of_not_isCurrent (h : Settlement s t loaded result s') (hc : s.isCurrent t = false) :
    s' = s := by
  cases h with
  | superseded => rfl
  | failed e => exact abandon_of_not_isCurrent hc
  | published _ current _ => rw [hc] at current; cases current

/-- The newest ticket brings the service to rest. -/
theorem rested_of_isCurrent (h : Settlement s t loaded result s') (hc : s.isCurrent t = true) :
    ∃ p, s' = s.rested p := by
  cases h with
  | superseded _ stale => rw [hc] at stale; cases stale
  | failed e => exact ⟨_, abandon_of_isCurrent hc⟩
  | published _ _ _ => exact ⟨_, rfl⟩

theorem snapshot_of_not_publishes (h : Settlement s t loaded result s')
    (hr : publishes result = false) : s'.snapshot = s.snapshot := by
  cases h with
  | superseded => rfl
  | failed e => exact abandon_snapshot
  | published _ _ done => rw [hr] at done; cases done

end Settlement

/-- **A rebuild that has been overtaken changes nothing, and reports only a failure to load.** -/
theorem settle_of_not_isCurrent (h : s.isCurrent t = false)
    (loaded : Option (Except LoadError Catalogue)) :
    s.settle t loaded = (overtakenResult loaded, s) := by
  rcases loaded with - | e | cat
  · simp [settle, publish, h, overtakenResult]
  · simp [settle, abandon_of_not_isCurrent h, overtakenResult]
  · simp [settle, publish, h, overtakenResult]

/-! ### Calls in another order -/

section Order

variable {u : Ticket}

/-- It makes no difference whether a rebuild is given up before or after a newer one begins. -/
theorem begin_abandon (h : t.generation ≤ s.generation) :
    (s.abandon t).begin = (s.begin.1, s.begin.2.abandon t) := by
  have hstale : s.begin.2.isCurrent t = false := by
    rw [← Bool.not_eq_true, isCurrent_iff]
    change s.generation + 1 ≠ t.generation
    omega
  rw [abandon_of_not_isCurrent hstale, abandon]
  split_ifs <;> rfl

theorem isCurrent_settle (loaded : Option (Except LoadError Catalogue)) :
    (s.settle u loaded).2.isCurrent t = s.isCurrent t := by
  have hsettle := s.settlement u loaded
  cases hcurrent : s.isCurrent u with
  | false => rw [hsettle.eq_of_not_isCurrent hcurrent]
  | true =>
    obtain ⟨p, hp⟩ := hsettle.rested_of_isCurrent hcurrent
    rw [hp]
    rfl

/-- It makes no difference whether a rebuild is given up before or after another one ends. -/
theorem settle_abandon (h : u.generation ≠ t.generation)
    (loaded : Option (Except LoadError Catalogue)) :
    (s.abandon t).settle u loaded = ((s.settle u loaded).1, (s.settle u loaded).2.abandon t) := by
  cases hcurrent : s.isCurrent t with
  | false =>
    have hafter : (s.settle u loaded).2.isCurrent t = false :=
      (isCurrent_settle loaded).trans hcurrent
    rw [abandon_of_not_isCurrent hcurrent, abandon_of_not_isCurrent hafter]
  | true =>
    -- the other rebuild has been overtaken by this one, so that its end changes nothing
    have hstale : s.isCurrent u = false := by
      rw [← Bool.not_eq_true, isCurrent_iff]
      exact fun hu => h (hu.symm.trans (isCurrent_iff.1 hcurrent))
    have hrested : (s.rested s.snapshot).isCurrent u = false := hstale
    rw [abandon_of_isCurrent hcurrent, settle_of_not_isCurrent hstale,
      settle_of_not_isCurrent hrested, abandon_of_isCurrent hcurrent]

end Order

/-! ### What holds at all times -/

/-- What holds of a service at all times. -/
structure Sound (s : Service) : Prop where
  /-- Tokens are numbered like rebuilds. -/
  current : s.current = s.generation
  /-- The cancelled tokens are those before the newest one. -/
  cancelled : ∀ k : Nat, k ∈ s.cancelled ↔ k < s.generation
  /-- A service that is not loading is at rest. -/
  rest : s.state ≠ .loading → s.state = restState s.snapshot.catalogue

/-- The ticket is one of those that the service has issued. -/
structure Issued (s : Service) (t : Ticket) : Prop where
  /-- The token has the number of the rebuild. -/
  token : t.token = t.generation
  /-- Rebuilds are numbered from one. -/
  pos : 0 < t.generation
  /-- The rebuild has started. -/
  le : t.generation ≤ s.generation

theorem sound_fresh : Sound {} where
  current := rfl
  cancelled := by simp
  rest := fun _ => rfl

theorem Sound.begin (h : s.Sound) : s.begin.2.Sound where
  current := congrArg (· + 1) h.current
  cancelled := by
    intro k
    have hk := h.cancelled k
    have hc := h.current
    simp only [Service.begin, List.mem_cons, hk, hc]
    omega
  rest := fun hl => absurd rfl hl

theorem Sound.rested (h : s.Sound) (p : Snapshot) : (s.rested p).Sound where
  current := h.current
  cancelled := h.cancelled
  rest := fun _ => rfl

theorem Sound.state_eq_ready_iff (h : s.Sound) (hl : s.state ≠ .loading) :
    s.state = .ready ↔ s.snapshot.catalogue.isEmpty = false := by
  rw [h.rest hl, restState_eq_ready_iff]

theorem Sound.issued_begin (h : s.Sound) : s.begin.2.Issued s.begin.1 where
  token := congrArg (· + 1) h.current
  pos := Nat.succ_pos _
  le := Nat.le_refl _

theorem Issued.mono (h : s.Issued t) (hle : s.generation ≤ s'.generation) : s'.Issued t :=
  ⟨h.token, h.pos, Nat.le_trans h.le hle⟩

theorem Issued.mk_generation (h : s.Issued t) : ⟨t.generation, t.generation⟩ = t := by
  obtain ⟨n, k⟩ := t
  obtain rfl : k = n := h.token
  rfl

/-- **A token is cancelled exactly if its ticket is not the newest one.** -/
theorem isCancelled_iff (h : s.Sound) (ht : s.Issued t) :
    s.isCancelled t.token = true ↔ s.isCurrent t = false := by
  rw [isCancelled, List.elem_eq_mem, decide_eq_true_iff, h.cancelled, ht.token,
    ← Bool.not_eq_true, isCurrent_iff]
  have := ht.le
  omega

end Service

end Rebuild

end OpcodeLens
