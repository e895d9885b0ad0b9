import OpcodeLens.Server.Notice

/-!
# Sessions on a clock

A session is a server together with the files it reads and an editor that treats requests in a given
way, on a clock. Whatever can happen at the present time happens at once (`Session.settle`):
refreshes go on as far as they can without waiting. `Session.advance` moves the clock from one due
time to the next. Only answers and waiting times take time.
-/

namespace OpcodeLens

/-- An ending that a request is going to have, unless it is cancelled. -/
structure Alarm where
  /-- The number of the refresh whose request it is. -/
  refresh : Nat
  /-- When the request ends. -/
  due : Nat
  /-- How it ends. -/
  ending : Ending

/-- A server with its files, its editor and a clock. -/
structure Session where
  /-- The server. -/
  server : Server := {}
  /-- Reads files. -/
  read : Reader := fun _ => .ok none
  /-- How the editor treats requests, by method; it hangs on any other request. -/
  replies : OrderedMap Behaviour := {}
  /-- The time, in milliseconds. -/
  now : Nat := 0
  /-- The endings to come. -/
  alarms : List Alarm := []

namespace Session

/-- How the editor treats a request. -/
def behaviour (s : Session) (r : Request) : Behaviour := (s.replies.get? r.method).getD .hang

/-- The step that a refresh can take at the present time. -/
def nextMove? (s : Session) (i : Nat) : Refresh → Option Server.Move
  | .spawned => some .begin
  | .begun _ => some .inquire
  | .asking ticket _ _ _ =>
    if s.server.rebuilds.isCancelled ticket.token then some (.hear .cancelled)
    else
      (s.alarms.find? fun a => a.refresh = i && a.due ≤ s.now).map fun a => .hear a.ending
  | .resolved _ _ _ => some (.load s.read s.read)
  | .loaded _ _ _ _ => some .publish
  | .finished _ _ => none

/-- The alarms after what the server has sent. -/
def schedule (s : Session) (alarms : List Alarm) : Outgoing → List Alarm
  | .request i r =>
    let (due, ending) := (s.behaviour r).finish s.now s.server.timeoutMs
    alarms ++ [⟨i, due, ending⟩]
  | _ => alarms

/-- The session after the refresh with number `i` has taken a step, and what was sent. -/
def apply (s : Session) (i : Nat) (m : Server.Move) : Option (Session × List Outgoing) :=
  (s.server.move i m).map fun (server, sent) =>
    let s := { s with server := server }
    let left := s.alarms.filter (·.refresh ≠ i)
    ({ s with alarms := sent.foldl s.schedule left }, sent)

/-- The first step that some refresh can take at the present time. -/
def step? (s : Session) : Option (Session × List Outgoing) :=
  (List.range s.server.refreshes.length).findSome? fun i =>
    (s.server.refreshes[i]?).bind fun stage => (s.nextMove? i stage).bind (s.apply i)

/-- A step is the move of some refresh, and takes no time. -/
theorem exists_move_of_step? {s next : Session} {sent : List Outgoing}
    (h : s.step? = some (next, sent)) :
    (∃ i m, s.server.move i m = some (next.server, sent)) ∧ next.now = s.now := by
  obtain ⟨i, -, hi⟩ := List.exists_of_findSome?_eq_some h
  obtain ⟨stage, -, hstage⟩ := Option.bind_eq_some_iff.1 hi
  obtain ⟨m, -, hm⟩ := Option.bind_eq_some_iff.1 hstage
  obtain ⟨⟨server, out⟩, hmove, heq⟩ := Option.map_eq_some_iff.1 hm
  cases heq
  exact ⟨⟨i, m, hmove⟩, rfl⟩

theorem stepsLeft_lt_of_step? {s next : Session} {sent : List Outgoing}
    (h : s.step? = some (next, sent)) : next.server.stepsLeft < s.server.stepsLeft := by
  obtain ⟨⟨i, m, hmove⟩, -⟩ := exists_move_of_step? h
  exact Server.stepsLeft_lt_of_move hmove

/-- Everything that can happen at the present time. -/
def settle (s : Session) : Session × List Outgoing :=
  match _h : s.step? with
  | none => (s, [])
  | some (next, sent) =>
    let settled := settle next
    (settled.1, sent ++ settled.2)
termination_by s.server.stepsLeft
decreasing_by exact stepsLeft_lt_of_step? _h

/-- The next time after the present one, up to the given time, at which a request ends. -/
def nextDue? (s : Session) (limit : Nat) : Option Nat :=
  ((s.alarms.map (·.due)).filter fun due => s.now < due && due ≤ limit).min?

theorem settle_of_none {s : Session} (h : s.step? = none) : settle s = (s, []) := by
  rw [settle]
  split
  · rfl
  · next h' => simp [h] at h'

theorem settle_of_some {s next : Session} {sent : List Outgoing} (h : s.step? = some (next, sent)) :
    settle s = ((settle next).1, sent ++ (settle next).2) := by
  rw [settle]
  split
  · next h' => simp [h] at h'
  · next h' =>
    rw [h] at h'
    cases h'
    rfl

/-- Settling changes nothing, or it leaves fewer steps to take. -/
theorem settle_eq_or_stepsLeft_lt (s : Session) :
    settle s = (s, []) ∨ (settle s).1.server.stepsLeft < s.server.stepsLeft := by
  induction s using settle.induct with
  | case1 s h => exact .inl (settle_of_none h)
  | case2 s next sent h ih =>
    have hlt := stepsLeft_lt_of_step? h
    right
    rw [settle_of_some h]
    obtain heq | hless := ih
    · rw [heq]
      exact hlt
    · exact Nat.lt_trans hless hlt

/-- The next due time is ahead of the present one, and of fewer due times. -/
theorem ahead_lt {s : Session} {limit due : Nat} (h : s.nextDue? limit = some due) :
    (s.alarms.filter (due < ·.due)).length < (s.alarms.filter (s.now < ·.due)).length := by
  obtain ⟨hmem, hrange⟩ := List.mem_filter.1 (List.min?_mem h)
  obtain ⟨alarm, halarm, rfl⟩ := List.mem_map.1 hmem
  have hnow : s.now < alarm.due := by
    simp only [Bool.and_eq_true, decide_eq_true_iff] at hrange
    exact hrange.1
  have hlater : s.alarms.filter (alarm.due < ·.due) =
      (s.alarms.filter (s.now < ·.due)).filter (alarm.due < ·.due) := by
    rw [List.filter_filter]
    refine List.filter_congr fun a _ => ?_
    rw [Bool.eq_iff_iff]
    simp only [Bool.and_eq_true, decide_eq_true_iff]
    omega
  rw [hlater, List.length_filter_lt_length_iff_exists]
  exact ⟨alarm, List.mem_filter.2 ⟨halarm, decide_eq_true hnow⟩, by simp⟩

/-- Moves the clock on to the given time, and lets happen on the way what can happen then. -/
def advanceTo (limit : Nat) (s : Session) : Session × List Outgoing :=
  match _h : s.nextDue? limit with
  | none => ({ s with now := limit }, [])
  | some due =>
    let settled := settle { s with now := due }
    let rest := advanceTo limit settled.1
    (rest.1, settled.2 ++ rest.2)
termination_by (s.server.stepsLeft, (s.alarms.filter (s.now < ·.due)).length)
decreasing_by
  obtain heq | hlt := settle_eq_or_stepsLeft_lt { s with now := due }
  · rw [heq]
    exact Prod.Lex.right _ (ahead_lt _h)
  · exact Prod.Lex.left _ _ hlt

/-- Lets some milliseconds pass. -/
def advance (s : Session) (ms : Nat) : Session × List Outgoing :=
  let settled := settle s
  let rest := advanceTo (s.now + ms) settled.1
  (rest.1, settled.2 ++ rest.2)

/-- The session after the editor has ended the request of the refresh with number `i`. -/
def reply (s : Session) (i : Nat) (ending : Ending) : Session :=
  { s with alarms := ⟨i, s.now, ending⟩ :: s.alarms.filter (·.refresh ≠ i) }

/-- What happens after a notice, at the present time. -/
def notice (s : Session) (n : Notice) : Session × List Outgoing :=
  let (server, sent) := s.server.notice n
  let (settled, more) := settle { s with server := server }
  (settled, sent ++ more)

/-! ### What is left to happen -/

variable {s : Session}

theorem step?_eq_none_iff : s.step? = none ↔ ∀ i stage m, s.server.refreshes[i]? = some stage →
    s.nextMove? i stage = some m → s.server.move i m = none := by
  unfold step? apply
  rw [List.findSome?_eq_none_iff]
  constructor
  · intro h i stage m hi hm
    have hlt : i < s.server.refreshes.length := (List.getElem?_eq_some_iff.1 hi).1
    have hnone := h i (List.mem_range.2 hlt)
    rw [hi, Option.bind_some, hm, Option.bind_some, Option.map_eq_none_iff] at hnone
    exact hnone
  · intro h i _
    rw [Option.bind_eq_none_iff]
    intro stage hi
    rw [Option.bind_eq_none_iff]
    intro m hm
    rw [Option.map_eq_none_iff]
    exact h i stage m hi hm

/-- **After settling nothing more can happen at the present time.** -/
theorem step?_settle (s : Session) : (settle s).1.step? = none := by
  induction s using settle.induct with
  | case1 s h =>
    rw [settle_of_none h]
    exact h
  | case2 s next sent h ih =>
    rw [settle_of_some h]
    exact ih

/-- Settling takes no time. -/
theorem now_settle (s : Session) : (settle s).1.now = s.now := by
  induction s using settle.induct with
  | case1 s h => rw [settle_of_none h]
  | case2 s next sent h ih =>
    rw [settle_of_some h]
    exact ih.trans (exists_move_of_step? h).2

theorem nextDue?_eq_none_iff {limit : Nat} :
    s.nextDue? limit = none ↔ ∀ a ∈ s.alarms, s.now < a.due → limit < a.due := by
  unfold nextDue?
  simp only [List.min?_eq_none_iff, List.filter_eq_nil_iff, List.mem_map, Bool.and_eq_true,
    decide_eq_true_iff, forall_exists_index, and_imp, forall_apply_eq_imp_iff₂]
  exact forall_congr' fun a => forall_congr' fun _ => by omega

/-- Nothing can happen later either before the next due time. -/
theorem step?_later {limit : Nat} (hle : s.now ≤ limit) (hdue : s.nextDue? limit = none)
    (h : s.step? = none) : { s with now := limit }.step? = none := by
  rw [nextDue?_eq_none_iff] at hdue
  rw [step?_eq_none_iff] at h ⊢
  intro i stage m hi hm
  refine h i stage m hi ?_
  have halarms : (s.alarms.find? fun a => a.refresh = i && a.due ≤ limit) =
      s.alarms.find? fun a => a.refresh = i && a.due ≤ s.now := by
    rw [← List.head?_filter, ← List.head?_filter]
    refine congrArg List.head? (List.filter_congr fun a ha => ?_)
    have := hdue a ha
    have hiff : a.due ≤ limit ↔ a.due ≤ s.now := by omega
    simp only [hiff]
  unfold nextMove? at hm ⊢
  dsimp only at hm
  rw [halarms] at hm
  exact hm

theorem advanceTo_of_none {limit : Nat} (h : s.nextDue? limit = none) :
    advanceTo limit s = ({ s with now := limit }, []) := by
  rw [advanceTo]
  split
  · rfl
  · next h' => simp [h] at h'

theorem advanceTo_of_some {limit due : Nat} (h : s.nextDue? limit = some due) :
    (advanceTo limit s).1 = (advanceTo limit (settle { s with now := due }).1).1 := by
  rw [advanceTo]
  split
  · next h' => simp [h] at h'
  · next h' =>
    obtain rfl := Option.some.inj (h.symm.trans h')
    rfl

theorem advanceTo_spec {limit : Nat} (s : Session) (hle : s.now ≤ limit) (h : s.step? = none) :
    (advanceTo limit s).1.now = limit ∧ (advanceTo limit s).1.step? = none := by
  induction s using advanceTo.induct limit with
  | case1 s hdue =>
    rw [advanceTo_of_none hdue]
    exact ⟨rfl, step?_later hle hdue h⟩
  | case2 s due hdue settled ih =>
    have hlimit : due ≤ limit := by
      have hrange := (List.mem_filter.1 (List.min?_mem hdue)).2
      simp only [Bool.and_eq_true, decide_eq_true_iff] at hrange
      exact hrange.2
    have hnow : settled.1.now = due := now_settle _
    rw [advanceTo_of_some hdue]
    exact ih (by omega) (step?_settle _)

/-- **When the time has passed, all has happened that could happen.** -/
theorem step?_advance (s : Session) (ms : Nat) :
    (s.advance ms).1.now = s.now + ms ∧ (s.advance ms).1.step? = none := by
  have hnow := now_settle s
  exact advanceTo_spec _ (by omega) (step?_settle s)

end Session

end OpcodeLens
