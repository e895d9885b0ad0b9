import OpcodeLens.Proofs.Rebuild.Service
import OpcodeLens.Server.Notice
import Mathlib.Logic.Relation

/-!
# What a refresh does to the server

The refreshes of a server run side by side, and `Server.move` takes one of them one step further.
This file says once what such a step can be, so that nothing else has to look into `Server.move`.

* `Refresh.Grounded` : what a refresh asks or loads has been found out under the settings that it
  has read.
* `Server.Leads` : where an inquiry leads a refresh, and `Server.proceed_leads`.
* `Server.Change` : the stage of a refresh before and after a step, the rebuild service after it,
  and what is sent; `Server.change_of_move` : every step is such a change of one refresh.
* `Server.notice_rebuilds`, `Server.notice_refreshes` : a notice spawns at most one refresh and
  never touches the rebuild service.
* `Server.Step` : a notice or a step of some refresh, in any order.
-/

namespace OpcodeLens

namespace Inquiry

variable {settings : Settings} {inquiry : Inquiry}

/-- Under these settings, some answers lead to the inquiry from its start. -/
def Arises (settings : Settings) (inquiry : Inquiry) : Prop :=
  ∃ answers : List Json, answers.foldl (answer settings) (start settings) = inquiry

theorem arises_start : (start settings).Arises settings := ⟨[], rfl⟩

theorem Arises.answer (h : inquiry.Arises settings) (value : Json) :
    (inquiry.answer settings value).Arises settings := by
  obtain ⟨answers, rfl⟩ := h
  exact ⟨answers ++ [value], by rw [List.foldl_append, List.foldl_cons, List.foldl_nil]⟩

end Inquiry

namespace Refresh

/-- The ticket of a refresh that has begun. -/
def ticket? : Refresh → Option Rebuild.Ticket
  | .spawned => none
  | .begun t => some t
  | .asking t _ _ _ => some t
  | .resolved t _ _ => some t
  | .loaded t _ _ _ => some t
  | .finished t _ => some t

/-- Has the refresh ended? -/
def ended : Refresh → Bool
  | .finished _ _ => true
  | _ => false

/-- What the refresh asks or loads has been found out under the settings that it has read. -/
def Grounded : Refresh → Prop
  | .asking _ settings inquiry _ => inquiry.request?.isSome = true ∧ inquiry.Arises settings
  | .resolved _ settings selection => (Inquiry.resolved selection).Arises settings
  | .loaded _ settings selection _ => (Inquiry.resolved selection).Arises settings
  | .finished _ (.settled settings selection _) => (Inquiry.resolved selection).Arises settings
  | _ => True

end Refresh

namespace Server

variable {s s' : Server} {i : Nat} {m : Move} {sent : List Outgoing} {t : Rebuild.Ticket}

/-! ### Inquiries -/

/-- Where an inquiry leads a refresh: to loading, to a request, or to its end if it has been
cancelled before the request is sent. -/
inductive Leads (s : Server) (i : Nat) (t : Rebuild.Ticket) (settings : Settings) :
    Inquiry → Refresh → List Outgoing → Prop
  /-- It is known what to load. -/
  | resolved (selection : Option Selection) :
      Leads s i t settings (.resolved selection) (.resolved t settings selection) []
  /-- A request is sent. -/
  | ask {inquiry : Inquiry} {r : Request} (hr : inquiry.request? = some r)
      (live : s.rebuilds.isCancelled t.token = false) :
      Leads s i t settings inquiry (.asking t settings inquiry s.timeoutMs) [.request i r]
  /-- The refresh has been cancelled. -/
  | cancelled {inquiry : Inquiry} (h : s.rebuilds.isCancelled t.token = true) :
      Leads s i t settings inquiry (.finished t .cancelled) []

theorem proceed_leads (s : Server) (i : Nat) (t : Rebuild.Ticket) (settings : Settings)
    (inquiry : Inquiry) :
    ∃ after sent, Leads s i t settings inquiry after sent ∧
      s.proceed i t settings inquiry = (s.setRefresh i after, sent) := by
  have hask : ∀ r, inquiry.request? = some r →
      s.proceed i t settings inquiry =
        if s.rebuilds.isCancelled t.token then (s.setRefresh i (.finished t .cancelled), [])
        else (s.setRefresh i (.asking t settings inquiry s.timeoutMs), [.request i r]) := by
    intro r hr
    cases inquiry with
    | askFolder | askVersion => simp only [proceed, hr]
    | resolved selection => simp [Inquiry.request?] at hr
  cases hr : inquiry.request? with
  | none =>
    cases inquiry with
    | askFolder | askVersion => simp [Inquiry.request?] at hr
    | resolved selection => exact ⟨_, _, .resolved selection, rfl⟩
  | some r =>
    rw [hask r hr]
    cases hc : s.rebuilds.isCancelled t.token with
    | true => exact ⟨_, _, .cancelled hc, rfl⟩
    | false => exact ⟨_, _, .ask hr hc, rfl⟩

/-! ### Steps of refreshes -/

/-- A step of the refresh with number `i`: its stage before and after, the rebuild service
afterwards and what is sent. -/
inductive Change (s : Server) (i : Nat) :
    Refresh → Refresh → Rebuild.Service → List Outgoing → Prop
  /-- It takes a ticket. -/
  | begin : Change s i .spawned (.begun s.rebuilds.begin.1) s.rebuilds.begin.2 []
  /-- It reads the settings. -/
  | inquire {t : Rebuild.Ticket} {after : Refresh} {sent : List Outgoing}
      (h : Leads s i t s.settings (Inquiry.start s.settings) after sent) :
      Change s i (.begun t) after s.rebuilds sent
  /-- It hears an answer. -/
  | answer {t : Rebuild.Ticket} {settings : Settings} {inquiry : Inquiry} {timeoutMs : Nat}
      {r : Request} (hr : inquiry.request? = some r)
      (live : s.rebuilds.isCancelled t.token = false) (value : Json) {after : Refresh}
      {sent : List Outgoing} (h : Leads s i t settings (inquiry.answer settings value) after sent) :
      Change s i (.asking t settings inquiry timeoutMs) after s.rebuilds sent
  /-- It hears that it has been cancelled. -/
  | cancel {t : Rebuild.Ticket} {settings : Settings} {inquiry : Inquiry} {timeoutMs : Nat}
      (h : s.rebuilds.isCancelled t.token = true) :
      Change s i (.asking t settings inquiry timeoutMs) (.finished t .cancelled) s.rebuilds []
  /-- Its request fails or takes too long. -/
  | skip {t : Rebuild.Ticket} {settings : Settings} {inquiry : Inquiry} {timeoutMs : Nat}
      (live : s.rebuilds.isCancelled t.token = false) (e : RequestError) :
      Change s i (.asking t settings inquiry timeoutMs) (.finished t (.skipped e))
        (s.rebuilds.abandon t) [.log .warning (skippedText e)]
  /-- It loads. -/
  | load {t : Rebuild.Ticket} {settings : Settings} {selection : Option Selection}
      (readDefinitions readEnums : Reader) :
      Change s i (.resolved t settings selection)
        (.loaded t settings selection
          (selection.map (Catalogue.loadWith readDefinitions readEnums))) s.rebuilds []
  /-- It ends its rebuild. -/
  | publish {t : Rebuild.Ticket} {settings : Settings} {selection : Option Selection}
      {loaded : Option (Except LoadError Catalogue)} :
      Change s i (.loaded t settings selection loaded)
        (.finished t (.settled settings selection (s.rebuilds.settle t loaded).1))
        (s.rebuilds.settle t loaded).2 (outcomeMessages (s.rebuilds.settle t loaded).1)

/-- The server after a change. -/
def changed (s : Server) (i : Nat) (after : Refresh) (service : Rebuild.Service) : Server :=
  { s.setRefresh i after with rebuilds := service }

/-- Only a cancelled request is heard to be cancelled. -/
theorem eq_cancelled_of_result {ending : Ending} {r : Request} {ms : Nat} {method : Text}
    (h : ending.result r ms = .error (.cancelled method)) : ending = .cancelled := by
  cases ending with
  | answered value =>
    rw [Ending.result] at h
    cases ha : r.accept value with
    | error reason => rw [ha] at h; cases h
    | ok value' => rw [ha] at h; cases h
  | refused reason => cases h
  | timedOut => cases h
  | cancelled => rfl

/-- The end of a request is a change, as long as it is heard to be cancelled exactly if it is. -/
theorem hear_change {settings : Settings} {inquiry : Inquiry} {ms : Nat} {r : Request}
    {result : Except RequestError Json} (hr : inquiry.request? = some r)
    (hcancelled : ∀ method, result = .error (.cancelled method) →
      s.rebuilds.isCancelled t.token = true)
    (hlive : (∀ method, result ≠ .error (.cancelled method)) →
      s.rebuilds.isCancelled t.token = false) :
    ∃ after service sent, Change s i (.asking t settings inquiry ms) after service sent ∧
      s.hear i t settings inquiry result = (s.changed i after service, sent) := by
  rcases result with e | value
  · cases e with
    | cancelled method => exact ⟨_, _, _, .cancel (hcancelled method rfl), rfl⟩
    | timedOut method afterMs =>
      have hl := hlive (by rintro _ ⟨⟩)
      exact ⟨_, _, _, .skip hl (.timedOut method afterMs), rfl⟩
    | failed method reason =>
      have hl := hlive (by rintro _ ⟨⟩)
      exact ⟨_, _, _, .skip hl (.failed method reason), rfl⟩
  · obtain ⟨after, sent, hleads, heq⟩ :=
      s.proceed_leads i t settings (inquiry.answer settings value)
    have hl := hlive (by rintro _ ⟨⟩)
    exact ⟨after, s.rebuilds, sent, .answer hr hl value hleads, heq⟩

/-- **Every step of a refresh is a change** of that refresh and perhaps of the rebuild service. -/
theorem change_of_move (h : s.move i m = some (s', sent)) :
    ∃ before after service, s.refreshes[i]? = some before ∧
      Change s i before after service sent ∧ s' = s.changed i after service := by
  -- one case for each stage with the move that fits it, and a last one for all others
  unfold move at h
  split at h
  · rename_i hi
    cases h
    exact ⟨_, _, _, hi, .begin, rfl⟩
  · rename_i t hi
    obtain ⟨after, out, hleads, heq⟩ := s.proceed_leads i t s.settings (Inquiry.start s.settings)
    rw [heq] at h
    cases h
    exact ⟨_, _, _, hi, .inquire hleads, rfl⟩
  · rename_i t settings inquiry ms ending hi
    split at h
    · cases h
    · rename_i r hr
      -- the guard: the request is heard to be cancelled exactly if the refresh has been
      obtain ⟨hguard, h⟩ := Option.ite_none_right_eq_some.1 h
      have hcancelled : ∀ method, ending.result r ms = .error (.cancelled method) →
          s.rebuilds.isCancelled t.token = true := by
        intro method he
        obtain rfl := eq_cancelled_of_result he
        exact hguard
      have hlive : (∀ method, ending.result r ms ≠ .error (.cancelled method)) →
          s.rebuilds.isCancelled t.token = false := by
        intro he
        cases ending with
        | cancelled => exact absurd rfl (he r.method)
        | answered | refused | timedOut => exact hguard
      obtain ⟨after, service, out, hchange, heq⟩ :
          ∃ after service sent, Change s i (.asking t settings inquiry ms) after service sent ∧
            s.hear i t settings inquiry (ending.result r ms) = (s.changed i after service, sent) :=
        hear_change hr hcancelled hlive
      rw [heq] at h
      cases h
      exact ⟨_, _, _, hi, hchange, rfl⟩
  · rename_i hi
    cases h
    exact ⟨_, _, _, hi, .load _ _, rfl⟩
  · rename_i hi
    cases h
    exact ⟨_, _, _, hi, .publish, rfl⟩
  · cases h

/-! ### Tickets of refreshes -/

/-- The ticket of the refresh with number `j`, if that has begun. -/
def ticketAt? (s : Server) (j : Nat) : Option Rebuild.Ticket := s.refreshes[j]?.bind Refresh.ticket?

/-- No refresh has a newer ticket. -/
def IsNewest (s : Server) (t : Rebuild.Ticket) : Prop :=
  ∀ j u, s.ticketAt? j = some u → u.generation ≤ t.generation

/-- All refreshes have ended. -/
def Idle (s : Server) : Prop := ∀ r ∈ s.refreshes, r.ended = true

theorem ticketAt?_of_getElem? {j : Nat} {r : Refresh} (h : s.refreshes[j]? = some r) :
    s.ticketAt? j = r.ticket? := by
  rw [ticketAt?, h, Option.bind_some]

theorem getElem?_changed {before after : Refresh} {service : Rebuild.Service}
    (hi : s.refreshes[i]? = some before) (j : Nat) :
    (s.changed i after service).refreshes[j]? = if j = i then some after else s.refreshes[j]? := by
  obtain ⟨hlt, -⟩ := List.getElem?_eq_some_iff.1 hi
  change (s.refreshes.set i after)[j]? = _
  by_cases hj : j = i
  · subst hj
    rw [if_pos rfl, List.getElem?_set_self hlt]
  · rw [if_neg hj, List.getElem?_set_ne (Ne.symm hj)]

theorem ticketAt?_changed {before after : Refresh} {service : Rebuild.Service}
    (hi : s.refreshes[i]? = some before) (j : Nat) :
    (s.changed i after service).ticketAt? j = if j = i then after.ticket? else s.ticketAt? j := by
  rw [ticketAt?, getElem?_changed hi, ticketAt?]
  split_ifs <;> rfl

theorem Leads.ticket? {settings : Settings} {inquiry : Inquiry} {after : Refresh}
    (h : Leads s i t settings inquiry after sent) : after.ticket? = some t := by
  cases h <;> rfl

/-- An inquiry ends a refresh only if that has been cancelled. -/
theorem Leads.isCancelled_of_ended {settings : Settings} {inquiry : Inquiry} {after : Refresh}
    (h : Leads s i t settings inquiry after sent) (he : after.ended = true) :
    s.rebuilds.isCancelled t.token = true := by
  cases h with
  | resolved selection => cases he
  | ask _ _ => cases he
  | cancelled hc => exact hc

theorem Leads.grounded {settings : Settings} {inquiry : Inquiry} {after : Refresh}
    (h : Leads s i t settings inquiry after sent) (hi : inquiry.Arises settings) :
    after.Grounded := by
  cases h with
  | resolved selection => exact hi
  | ask hr _ => exact ⟨Option.isSome_of_eq_some hr, hi⟩
  | cancelled _ => trivial

theorem Change.grounded {before after : Refresh} {service : Rebuild.Service}
    (h : Change s i before after service sent) (hb : before.Grounded) : after.Grounded := by
  cases h with
  | begin => trivial
  | inquire hleads => exact hleads.grounded Inquiry.arises_start
  | answer _ _ value hleads => exact hleads.grounded (hb.2.answer value)
  | cancel _ => trivial
  | skip _ _ => trivial
  | load _ _ => exact hb
  | publish => exact hb

/-- What a step means for tickets: a refresh takes a new ticket, or it goes on with the one it has.
In the latter case it leaves the rebuild service alone, and ends only if its ticket is not the
newest one, or it has the newest ticket and brings the service to rest. -/
theorem Change.effect {before after : Refresh} {service : Rebuild.Service}
    (h : Change s i before after service sent) (hs : s.rebuilds.Sound)
    (hissued : ∀ t, before.ticket? = some t → s.rebuilds.Issued t) :
    (before = .spawned ∧ after = .begun s.rebuilds.begin.1 ∧ service = s.rebuilds.begin.2) ∨
    ∃ t, before.ticket? = some t ∧ after.ticket? = some t ∧
      ((service = s.rebuilds ∧ (after.ended = true → s.rebuilds.isCurrent t = false)) ∨
        (s.rebuilds.isCurrent t = true ∧ ∃ p, service = s.rebuilds.rested p)) := by
  have hstale : ∀ t, before.ticket? = some t → s.rebuilds.isCancelled t.token = true →
      s.rebuilds.isCurrent t = false :=
    fun t ht => (Rebuild.Service.isCancelled_iff hs (hissued t ht)).1
  cases h with
  | begin => exact .inl ⟨rfl, rfl, rfl⟩
  | @inquire t _ _ hleads =>
    exact .inr ⟨t, rfl, hleads.ticket?, .inl ⟨rfl,
      fun he => hstale t rfl (hleads.isCancelled_of_ended he)⟩⟩
  | @answer t _ _ _ _ _ _ _ _ _ hleads =>
    exact .inr ⟨t, rfl, hleads.ticket?, .inl ⟨rfl,
      fun he => hstale t rfl (hleads.isCancelled_of_ended he)⟩⟩
  | @cancel t _ _ _ hc => exact .inr ⟨t, rfl, rfl, .inl ⟨rfl, fun _ => hstale t rfl hc⟩⟩
  | @skip t _ _ _ _ _ =>
    refine .inr ⟨t, rfl, rfl, ?_⟩
    cases hc : s.rebuilds.isCurrent t with
    | false => exact .inl ⟨Rebuild.Service.abandon_of_not_isCurrent hc, fun _ => rfl⟩
    | true => exact .inr ⟨rfl, _, Rebuild.Service.abandon_of_isCurrent hc⟩
  | @load t _ _ _ _ => exact .inr ⟨t, rfl, rfl, .inl ⟨rfl, nofun⟩⟩
  | @publish t _ _ loaded =>
    have hsettle := s.rebuilds.settlement t loaded
    refine .inr ⟨t, rfl, rfl, ?_⟩
    cases hc : s.rebuilds.isCurrent t with
    | false => exact .inl ⟨hsettle.eq_of_not_isCurrent hc, fun _ => rfl⟩
    | true => exact .inr ⟨rfl, hsettle.rested_of_isCurrent hc⟩

/-! ### Notices -/

theorem notice_rebuilds (s : Server) (n : Notice) : (s.notice n).1.rebuilds = s.rebuilds := by
  cases n with
  | opening | settingsChanged | documentChanged => unfold notice; simp only; split <;> rfl
  | opened | documentOpened | documentClosed => rfl

theorem notice_refreshes (s : Server) (n : Notice) :
    (s.notice n).1.refreshes = s.refreshes ∨
      (s.notice n).1.refreshes = s.refreshes ++ [.spawned] := by
  cases n with
  | opening | documentChanged => unfold notice; simp only; split <;> exact .inl rfl
  | settingsChanged =>
    unfold notice
    simp only
    split
    · exact .inr rfl
    · exact .inl rfl
  | opened => exact .inr rfl
  | documentOpened | documentClosed => exact .inl rfl

theorem ticketAt?_notice (s : Server) (n : Notice) (j : Nat) :
    (s.notice n).1.ticketAt? j = s.ticketAt? j := by
  rcases s.notice_refreshes n with h | h
  · rw [ticketAt?, h, ticketAt?]
  · rw [ticketAt?, h, ticketAt?]
    rcases Nat.lt_trichotomy j s.refreshes.length with hj | rfl | hj
    · rw [List.getElem?_append_left hj]
    · simp [Refresh.ticket?]
    · rw [List.getElem?_eq_none (by simp; omega), List.getElem?_eq_none (by omega)]

/-! ### Runs -/

/-- A step of the server: a notice of an expected kind, or a step of a refresh. -/
inductive Step (expected : Notice → Prop) (s : Server) : Server → Prop
  /-- The editor tells something. -/
  | notice (n : Notice) (h : expected n) : Step expected s (s.notice n).1
  /-- A refresh goes on. -/
  | move {i : Nat} {m : Move} {s' : Server} {sent : List Outgoing}
      (h : s.move i m = some (s', sent)) : Step expected s s'

/-- Some steps lead to the server from a fresh one, in any order and with any notices. -/
abbrev Reached (s : Server) : Prop := Relation.ReflTransGen (Step fun _ => True) {} s

end Server

end OpcodeLens
