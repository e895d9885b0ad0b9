import OpcodeLens.Proofs.Server.Loading

/-!
# What an overtaken refresh says

A refresh that ends without the newest ticket leaves the rebuild service alone.  It also keeps
quiet, with one exception: if its sources could not be loaded it says so, whether they still matter
or not.

* `Refresh.messages` : what a refresh says by its end, and `Server.Spoken.messages_eq` : over a
  whole run it has said just that, and nothing before.
* `Server.Change.end_of_not_isCurrent` : the step with which an overtaken refresh ends.
* `Server.overtaken_refresh_messages` : **what an overtaken refresh has said.**
-/

namespace OpcodeLens

/-! ### Messages -/

/-- Is it a message to the user, and not a request? -/
def Outgoing.isMessage : Outgoing → Bool
  | .log _ _ => true
  | .alert _ _ => true
  | .request _ _ => false

/-- What a refresh says that ends with the given report. -/
def Report.messages : Report → List Outgoing
  | .cancelled => []
  | .skipped e => [.log .warning (Server.skippedText e)]
  | .settled _ _ result => Server.outcomeMessages result

namespace Refresh

/-- What a refresh has to say at its stage: nothing before its end. -/
def messages : Refresh → List Outgoing
  | .finished _ report => report.messages
  | _ => []

/-- Why a refresh could not load its sources. -/
def loadFailure? : Refresh → Option LoadError
  | .loaded _ _ _ (some (.error e)) => some e
  | _ => none

theorem messages_of_not_ended {r : Refresh} (h : r.ended = false) : r.messages = [] := by
  cases r with
  | finished t report => cases h
  | spawned | begun | asking | resolved | loaded => rfl

end Refresh

namespace Server

variable {s s' : Server} {i : Nat} {m : Move} {sent : List Outgoing} {t : Rebuild.Ticket}
  {before after : Refresh} {service : Rebuild.Service}

theorem isMessage_of_mem_outcomeMessages {result : Except LoadError Rebuild.Outcome}
    {o : Outgoing} (ho : o ∈ outcomeMessages result) : o.isMessage = true := by
  rcases result with e | (_ | _ | _) <;> simp [outcomeMessages] at ho <;> subst ho <;> rfl

theorem Leads.filter_isMessage {settings : Settings} {inquiry : Inquiry}
    (h : Leads s i t settings inquiry after sent) :
    sent.filter Outgoing.isMessage = after.messages := by
  cases h <;> rfl

theorem Leads.eq_cancelled_of_ended {settings : Settings} {inquiry : Inquiry}
    (h : Leads s i t settings inquiry after sent) (he : after.ended = true) :
    after = .finished t .cancelled := by
  cases h with
  | resolved selection => cases he
  | ask _ _ => cases he
  | cancelled _ => rfl

/-- **A step says what the stage that it leads to has to say.** -/
theorem Change.filter_isMessage (h : Change s i before after service sent) :
    sent.filter Outgoing.isMessage = after.messages := by
  cases h with
  | begin => rfl
  | inquire hleads => exact hleads.filter_isMessage
  | answer _ _ _ hleads => exact hleads.filter_isMessage
  | cancel _ => rfl
  | skip _ e => rfl
  | load _ _ => rfl
  | publish => exact List.filter_eq_self.2 fun o => isMessage_of_mem_outcomeMessages

theorem Change.not_ended (h : Change s i before after service sent) : before.ended = false := by
  cases h <;> rfl

/-! ### Runs -/

/-- Some steps lead to the server from a fresh one, and along them each refresh has sent what `said`
has under its number. -/
inductive Spoken : Server → (Nat → List Outgoing) → Prop
  /-- Nothing has happened. -/
  | fresh : Spoken {} fun _ => []
  /-- The editor tells something; no refresh takes part in it. -/
  | notice {s : Server} {said : Nat → List Outgoing} (h : Spoken s said) (n : Notice) :
      Spoken (s.notice n).1 said
  /-- A refresh goes on. -/
  | move {s s' : Server} {said : Nat → List Outgoing} {i : Nat} {m : Move} {sent : List Outgoing}
      (h : Spoken s said) (hm : s.move i m = some (s', sent)) :
      Spoken s' (Function.update said i (said i ++ sent))

namespace Spoken

variable {said : Nat → List Outgoing}

theorem reached (h : Spoken s said) : s.Reached := by
  induction h with
  | fresh => exact .refl
  | notice _ n ih => exact ih.tail (.notice n trivial)
  | move _ hm ih => exact ih.tail (.move hm)

/-- **Over a run, a refresh has said what its stage has to say.** -/
theorem messages_eq (h : Spoken s said) (j : Nat) :
    (said j).filter Outgoing.isMessage = (s.refreshes[j]?.map Refresh.messages).getD [] := by
  induction h with
  | fresh => rfl
  | @notice s said _ n ih =>
    rcases s.notice_refreshes n with hn | hn
    · rw [hn]
      exact ih
    · -- a refresh that has just been spawned has nothing to say
      rw [hn, ih]
      rcases Nat.lt_trichotomy j s.refreshes.length with hj | rfl | hj
      · rw [List.getElem?_append_left hj]
      · simp [Refresh.messages]
      · have hlength : (s.refreshes ++ [Refresh.spawned]).length ≤ j := by
          rw [List.length_append, List.length_singleton]
          omega
        rw [List.getElem?_eq_none hlength, List.getElem?_eq_none (by omega)]
  | @move s s' said i m sent _ hm ih =>
    obtain ⟨before, after, service, hi, hc, rfl⟩ := change_of_move hm
    rw [getElem?_changed hi]
    split_ifs with hj
    · -- the refresh had not ended, so that it had said nothing
      subst hj
      rw [hi, Option.map_some, Option.getD_some,
        Refresh.messages_of_not_ended hc.not_ended] at ih
      rw [Function.update_self, List.filter_append, ih, hc.filter_isMessage, List.nil_append]
      rfl
    · rw [Function.update_of_ne hj]
      exact ih

end Spoken

/-! ### Overtaken refreshes -/

/-- **The step with which an overtaken refresh ends** leaves the service alone, and says nothing
unless loading has failed. -/
theorem Change.end_of_not_isCurrent (h : Change s i before after service sent)
    (hs : s.rebuilds.Sound) (ht : before.ticket? = some t) (hissued : s.rebuilds.Issued t)
    (hstale : s.rebuilds.isCurrent t = false) (hended : after.ended = true) :
    service = s.rebuilds ∧
      after.messages =
        before.loadFailure?.toList.map fun e => .alert .error (loadFailedText e) := by
  have hcancelled : s.rebuilds.isCancelled t.token = true :=
    (Rebuild.Service.isCancelled_iff hs hissued).2 hstale
  cases h with
  | begin => cases hended
  | inquire hleads =>
    rw [hleads.eq_cancelled_of_ended hended]
    exact ⟨rfl, rfl⟩
  | answer _ live _ _ =>
    cases ht
    rw [live] at hcancelled
    cases hcancelled
  | cancel _ => exact ⟨rfl, rfl⟩
  | skip live _ =>
    cases ht
    rw [live] at hcancelled
    cases hcancelled
  | load _ _ => cases hended
  | @publish _ _ _ loaded =>
    cases ht
    rw [Rebuild.Service.settle_of_not_isCurrent hstale loaded]
    refine ⟨rfl, ?_⟩
    rcases loaded with - | e | cat <;> rfl

/-- A refresh that ends had its ticket before its last step. -/
theorem Kept.ticketAt?_of_finished (hkept : Kept s) (hi : s.refreshes[i]? = some before)
    {report : Report} (hc : Change s i before (.finished t report) service sent) :
    before.ticket? = some t ∧ s.ticketAt? i = some t := by
  have hissued : ∀ u, before.ticket? = some u → s.rebuilds.Issued u :=
    fun u hu => hkept.issued i u ((ticketAt?_of_getElem? hi).trans hu)
  rcases hc.effect hkept.sound hissued with ⟨-, hbegun, -⟩ | ⟨u, hbefore, hafter, -⟩
  · cases hbegun
  · cases hafter
    exact ⟨hbefore, (ticketAt?_of_getElem? hi).trans hbefore⟩

/-- **What an overtaken refresh has said.**  A rebuild that ends without the newest ticket changes
nothing, and its result is `superseded` exactly if loading has not failed; otherwise it is the
failure.  So whatever notices have come and in whatever order the refreshes have gone on, a refresh
that ends without the newest ticket has said nothing in its whole life if loading has not failed,
and otherwise one thing, that its definitions could not be loaded. -/
theorem overtaken_refresh_messages (t : Rebuild.Ticket) :
    (∀ (service : Rebuild.Service) (read : Reader) (selection : Option Selection),
      service.isCurrent t = false →
        service.complete read t selection =
            (Rebuild.overtakenResult (selection.map (Catalogue.load read)), service) ∧
          ((service.complete read t selection).1 = .ok .superseded ↔
            ∀ e, selection.map (Catalogue.load read) ≠ some (.error e))) ∧
    ∀ (s s' : Server) (said : Nat → List Outgoing) (i : Nat) (m : Move) (sent : List Outgoing)
      (r : Refresh) (report : Report), Spoken s said →
        s.refreshes[i]? = some r → s.move i m = some (s', sent) →
        s'.refreshes[i]? = some (.finished t report) → ¬ s.IsNewest t →
          s'.rebuilds = s.rebuilds ∧
          (said i ++ sent).filter Outgoing.isMessage =
            r.loadFailure?.toList.map (fun e => .alert .error (loadFailedText e)) ∧
          ((said i ++ sent).filter Outgoing.isMessage = [] ↔ r.loadFailure? = none) := by
  constructor
  · intro service read selection hstale
    have hcomplete : service.complete read t selection =
        (Rebuild.overtakenResult (selection.map (Catalogue.load read)), service) :=
      Rebuild.Service.settle_of_not_isCurrent hstale _
    refine ⟨hcomplete, ?_⟩
    rw [hcomplete]
    exact Rebuild.overtakenResult_eq_superseded_iff
  · intro s s' said i m sent r report hspoken hr hm hend hstale
    have hkept := hspoken.reached.kept
    have hsaid := (hspoken.move hm).messages_eq i
    rw [Function.update_self, hend, Option.map_some, Option.getD_some] at hsaid
    obtain ⟨before, after, service, hi, hc, rfl⟩ := change_of_move hm
    rw [getElem?_changed_self hi, Option.some.injEq] at hend
    obtain rfl : before = r := Option.some.inj (hi.symm.trans hr)
    subst hend
    obtain ⟨ht, hat⟩ := hkept.ticketAt?_of_finished hi hc
    have hcurrent : s.rebuilds.isCurrent t = false := by
      rw [← Bool.not_eq_true, ← hkept.isNewest_iff hat]
      exact hstale
    obtain ⟨hservice, hmessages⟩ :=
      hc.end_of_not_isCurrent hkept.sound ht (hkept.issued i t hat) hcurrent rfl
    have hall := hsaid.trans hmessages
    refine ⟨hservice, hall, ?_⟩
    rw [hall]
    cases before.loadFailure? <;> simp

/-! ### A refresh that is overtaken after loading -/

/-- Settings that leave nothing to ask for. -/
def configured : Settings := { folderPath := some ['f'], gameVersion := some ['v'] }

/-- What is to be loaded under these settings. -/
def configuredSelection : Selection := configured.table.select ['f'] ['v']

/-- A server with two refreshes.  The first one has loaded its enumerations by the given reader
before the second one has begun; there are no definitions. -/
def overtaken (readEnums : Reader) : Server :=
  { settings := configured
    rebuilds := { generation := 2, state := .loading, current := 2, cancelled := [1, 0] }
    refreshes :=
      [.loaded ⟨1, 1⟩ configured (some configuredSelection)
        (some (Catalogue.loadWith (fun _ => .ok none) readEnums configuredSelection)),
        .begun ⟨2, 2⟩] }

theorem exists_spoken_overtaken (readEnums : Reader) :
    ∃ said, Spoken (overtaken readEnums) said := by
  have hchanged := Spoken.fresh.notice
    (.settingsChanged (.arr [.str (some ['f']), .str (some ['v'])]))
  have hopened := hchanged.notice .opened
  have hbegin := hopened.move (i := 0) (m := .begin) rfl
  have hresolved := hbegin.move (i := 0) (m := .inquire) rfl
  have hloaded := hresolved.move (i := 0) (m := .load (fun _ => .ok none) readEnums) rfl
  have hovertaken := hloaded.move (i := 1) (m := .begin) rfl
  exact ⟨_, hovertaken⟩

theorem not_isNewest_overtaken (readEnums : Reader) : ¬ (overtaken readEnums).IsNewest ⟨1, 1⟩ := by
  intro h
  exact absurd (h 1 ⟨2, 2⟩ rfl) (by decide)

/-- Without enumerations there is nothing that could fail, and nothing is said. -/
theorem overtaken_silent :
    (overtaken fun _ => .ok none).rebuilds.isCurrent ⟨1, 1⟩ = false ∧
    ((overtaken fun _ => .ok none).rebuilds.complete (fun _ => .ok none) ⟨1, 1⟩
      (some configuredSelection)).1 = .ok .superseded ∧
    ∃ s' said sent, Spoken (overtaken fun _ => .ok none) said ∧
      (overtaken fun _ => .ok none).move 0 .publish = some (s', sent) ∧
      ¬ (overtaken fun _ => .ok none).IsNewest ⟨1, 1⟩ ∧
      (said 0 ++ sent).filter Outgoing.isMessage = [] := by
  obtain ⟨hcomplete, hmessages⟩ := overtaken_refresh_messages ⟨1, 1⟩
  obtain ⟨said, hsaid⟩ := exists_spoken_overtaken fun _ => .ok none
  have hnewest := not_isNewest_overtaken fun _ => .ok none
  refine ⟨rfl, ?_, _, said, _, hsaid, rfl, hnewest, ?_⟩
  · rw [(hcomplete _ _ _ rfl).1]
    rfl
  · exact (hmessages _ _ said 0 .publish _ _ _ hsaid rfl rfl rfl hnewest).2.1

/-- A reader that finds an enumeration without an end. -/
def readEndless : Reader := fun _ => .ok (some "enum A\n a\n".toList)

theorem load_endless :
    Catalogue.loadWith (fun _ => .ok none) readEndless configuredSelection =
      .error (.unterminated ⟨['A'], 1⟩) := by
  have hblocks : Enumeration.blocks false 1 "enum A\n a\n".toList = .error ⟨['A'], 1⟩ := by
    decide +kernel
  have hparse : Enumeration.parse "enum A\n a\n".toList = .error ⟨['A'], 1⟩ := by
    rw [Enumeration.parse, hblocks]
    rfl
  have henums : Catalogue.parseEnums (some "enum A\n a\n".toList) =
      .error (.unterminated ⟨['A'], 1⟩) := by
    rw [Catalogue.parseEnums, hparse]
    rfl
  change Catalogue.parseEnums (some "enum A\n a\n".toList) >>= _ = _
  rw [henums]
  rfl

/-- An overtaken refresh shows an error if one of its enumerations has no end. -/
theorem overtaken_speaks :
    ∃ s' said sent report, Spoken (overtaken readEndless) said ∧
      (overtaken readEndless).move 0 .publish = some (s', sent) ∧
      s'.refreshes[0]? = some (.finished ⟨1, 1⟩ report) ∧
      ¬ (overtaken readEndless).IsNewest ⟨1, 1⟩ ∧
      (said 0 ++ sent).filter Outgoing.isMessage =
        [.alert .error (loadFailedText (.unterminated ⟨['A'], 1⟩))] := by
  obtain ⟨said, hsaid⟩ := exists_spoken_overtaken readEndless
  refine ⟨_, said, _, _, hsaid, rfl, rfl, not_isNewest_overtaken readEndless, ?_⟩
  have hbefore := hsaid.messages_eq 0
  rw [List.filter_append, hbefore, load_endless]
  rfl

end Server

end OpcodeLens
