import OpcodeLens.Client.Inquiry
import OpcodeLens.Rebuild.Basic

/-!
# The server

The server keeps the open documents, the settings and the published catalogue. Whenever the settings
change it starts a refresh, which finds out what to load, loads it and publishes it. Refreshes run
side by side: each is at a stage of its own (`Refresh`), and `Server.move` takes one refresh one
step further. A step is possible only at the right stage, and then it may come in any order with the
steps of other refreshes.
-/

namespace OpcodeLens

/-- The weight of a message to the user. -/
inductive Level where
  /-- Something has failed. -/
  | error
  /-- Something is not as it should be. -/
  | warning
  /-- Something has happened. -/
  | info
  deriving DecidableEq, Repr

/-- What the server sends to the editor of its own accord. -/
inductive Outgoing where
  /-- A line for the log. -/
  | log (level : Level) (text : Text)
  /-- A message to show. -/
  | alert (level : Level) (text : Text)
  /-- A request of the refresh with the given number. -/
  | request (refresh : Nat) (r : Request)

/-- How a refresh has ended. -/
inductive Report where
  /-- A newer refresh has cancelled it. -/
  | cancelled
  /-- The editor could not be asked. -/
  | skipped (error : RequestError)
  /-- The rebuild has come to its end, with a selection that was found under the given settings. -/
  | settled (settings : Settings) (selection : Option Selection)
      (result : Except LoadError Rebuild.Outcome)

/-- The stages of a refresh. -/
inductive Refresh where
  /-- It has not started. -/
  | spawned
  /-- It has its ticket. -/
  | begun (ticket : Rebuild.Ticket)
  /-- It waits for an answer of the editor, for at most `timeoutMs` milliseconds. -/
  | asking (ticket : Rebuild.Ticket) (settings : Settings) (inquiry : Inquiry) (timeoutMs : Nat)
  /-- It knows what to load. -/
  | resolved (ticket : Rebuild.Ticket) (settings : Settings) (selection : Option Selection)
  /-- It has loaded. -/
  | loaded (ticket : Rebuild.Ticket) (settings : Settings) (selection : Option Selection)
      (result : Option (Except LoadError Catalogue))
  /-- It has ended. -/
  | finished (ticket : Rebuild.Ticket) (report : Report)

/-- The number of steps that the refresh may still take, at most. -/
def Refresh.rank : Refresh → Nat
  | .spawned => 6
  | .begun _ => 5
  | .asking _ _ inquiry _ => inquiry.rank + 2
  | .resolved _ _ _ => 2
  | .loaded _ _ _ _ => 1
  | .finished _ _ => 0

/-- The server. -/
structure Server where
  /-- The settings in force. -/
  settings : Settings := {}
  /-- How long to wait for an answer of the editor, in milliseconds. -/
  timeoutMs : Nat := 5000
  /-- The texts of the open documents, by address. -/
  documents : OrderedMap Text := {}
  /-- The owner of the published catalogue. -/
  rebuilds : Rebuild.Service := {}
  /-- The refreshes, in the order in which they were spawned. -/
  refreshes : List Refresh := []
  /-- What is wrong with settings that are not valid, in the words of their reader. -/
  faultText : Json → Text := fun _ => []

namespace Server

/-- The published catalogue. -/
def catalogue (s : Server) : Catalogue := s.rebuilds.snapshot.catalogue

/-- The server with a refresh at another stage. -/
def setRefresh (s : Server) (i : Nat) (stage : Refresh) : Server :=
  { s with refreshes := s.refreshes.set i stage }

/-- Puts new settings in force. -/
def applySettings (s : Server) (settings : Settings) : Server :=
  { s with settings := settings, timeoutMs := settings.requestTimeoutMs }

/-- Spawns a refresh. -/
def spawn (s : Server) : Server := { s with refreshes := s.refreshes ++ [.spawned] }

/-! ### Messages -/

/-- What a refresh says when it could not ask the editor. -/
def skippedText (e : RequestError) : Text := "Index refresh skipped: ".toList ++ e.message

/-- What a refresh says when it has published. -/
def indexedText (opcodes classes enums : Nat) : Text :=
  "Indexed ".toList ++ Text.ofNat opcodes ++ " opcodes, ".toList ++ Text.ofNat classes ++
    " classes and ".toList ++ Text.ofNat enums ++ " enums.".toList

/-- What a refresh says when nothing is configured. -/
def notConfiguredText : Text :=
  "Sanny Builder folder or game version is not set; completions are disabled.".toList

/-- What a refresh says when its sources could not be loaded. -/
def loadFailedText (e : LoadError) : Text := "Failed to load definitions: ".toList ++ e.message

/-- What a refresh says when its rebuild has ended; nothing if it was superseded. -/
def outcomeMessages : Except LoadError Rebuild.Outcome → List Outgoing
  | .ok (.published opcodes classes enums) => [.log .info (indexedText opcodes classes enums)]
  | .ok .notConfigured => [.log .info notConfiguredText]
  | .ok .superseded => []
  | .error e => [.alert .error (loadFailedText e)]

/-! ### Steps of refreshes -/

/-- A step of a refresh. -/
inductive Move where
  /-- It takes a ticket. -/
  | begin
  /-- It reads the settings and asks for what they lack. -/
  | inquire
  /-- Its request ends. -/
  | hear (ending : Ending)
  /-- It loads the sources, the definitions by one reader and the enumerations by another. -/
  | load (readDefinitions readEnums : Reader)
  /-- It ends its rebuild. -/
  | publish

/-- Goes on with an inquiry: asks the next question, unless the refresh has been cancelled, or goes
on to loading. -/
def proceed (s : Server) (i : Nat) (ticket : Rebuild.Ticket) (settings : Settings)
    (inquiry : Inquiry) : Server × List Outgoing :=
  match inquiry with
  | .resolved selection => (s.setRefresh i (.resolved ticket settings selection), [])
  | _ =>
    match inquiry.request? with
    | none => (s, [])
    | some r =>
      if s.rebuilds.isCancelled ticket.token then (s.setRefresh i (.finished ticket .cancelled), [])
      else (s.setRefresh i (.asking ticket settings inquiry s.timeoutMs), [.request i r])

/-- The end of a request. -/
def hear (s : Server) (i : Nat) (ticket : Rebuild.Ticket) (settings : Settings) (inquiry : Inquiry)
    (result : Except RequestError Json) : Server × List Outgoing :=
  match result with
  | .ok value => s.proceed i ticket settings (inquiry.answer settings value)
  | .error (.cancelled _) => (s.setRefresh i (.finished ticket .cancelled), [])
  | .error e =>
    ({ s.setRefresh i (.finished ticket (.skipped e)) with rebuilds := s.rebuilds.abandon ticket },
      [.log .warning (skippedText e)])

/-- Takes the refresh with number `i` one step further, if that step is possible. A request is heard
to be cancelled exactly when the refresh has been; any other ending comes too late then.

A step takes together what a refresh does without waiting: a request that fails, giving up the
rebuild and saying so, and the end of a rebuild and saying so. No outcome is lost by this. What is
said is read by nothing, so that saying it later only changes its place among the messages of other
refreshes; and giving up a rebuild later leaves the service as giving it up at once does, whatever
rebuilds begin or end meanwhile (`Rebuild.Service.begin_abandon`, `Rebuild.Service.settle_abandon`).
-/
def move (s : Server) (i : Nat) (m : Move) : Option (Server × List Outgoing) :=
  match s.refreshes[i]?, m with
  | some .spawned, .begin =>
    let (ticket, rebuilds) := s.rebuilds.begin
    some ({ s.setRefresh i (.begun ticket) with rebuilds := rebuilds }, [])
  | some (.begun ticket), .inquire =>
    some (s.proceed i ticket s.settings (Inquiry.start s.settings))
  | some (.asking ticket settings inquiry timeoutMs), .hear ending =>
    match inquiry.request? with
    | none => none
    | some r =>
      let cancelled := match ending with
        | .cancelled => true
        | _ => false
      if s.rebuilds.isCancelled ticket.token = cancelled then
        some (s.hear i ticket settings inquiry (ending.result r timeoutMs))
      else none
  | some (.resolved ticket settings selection), .load readDefinitions readEnums =>
    let result := selection.map (Catalogue.loadWith readDefinitions readEnums)
    some (s.setRefresh i (.loaded ticket settings selection result), [])
  | some (.loaded ticket settings selection loaded), .publish =>
    let (result, rebuilds) := s.rebuilds.settle ticket loaded
    some ({ s.setRefresh i (.finished ticket (.settled settings selection result)) with
      rebuilds := rebuilds }, outcomeMessages result)
  | _, _ => none

/-! ### Steps that are left -/

/-- The number of steps that refreshes may still take, at most. -/
def ranks : List Refresh → Nat
  | [] => 0
  | r :: rest => r.rank + ranks rest

/-- The number of steps that the refreshes of the server may still take, at most. -/
def stepsLeft (s : Server) : Nat := ranks s.refreshes

theorem ranks_set_lt {refreshes : List Refresh} {i : Nat} {before after : Refresh}
    (hi : refreshes[i]? = some before) (hlt : after.rank < before.rank) :
    ranks (refreshes.set i after) < ranks refreshes := by
  induction refreshes generalizing i with
  | nil => simp at hi
  | cons r refreshes ih =>
    cases i with
    | zero =>
      obtain rfl : r = before := by simpa using hi
      simp only [List.set_cons_zero, ranks]
      omega
    | succ i =>
      have := ih (by simpa using hi)
      simp only [List.set_cons_succ, ranks]
      omega

variable {s s' : Server} {i : Nat} {before : Refresh}

/-- A refresh that goes on with an inquiry has that to answer, to load and to publish. -/
theorem stepsLeft_proceed_lt (hi : s.refreshes[i]? = some before) (ticket : Rebuild.Ticket)
    (settings : Settings) {inquiry : Inquiry} (hlt : inquiry.rank + 2 < before.rank) :
    (s.proceed i ticket settings inquiry).1.stepsLeft < s.stepsLeft := by
  have hstage : ∀ after : Refresh, after.rank ≤ inquiry.rank + 2 →
      (s.setRefresh i after).stepsLeft < s.stepsLeft :=
    fun after hle => ranks_set_lt hi (Nat.lt_of_le_of_lt hle hlt)
  have hask : ∀ r, ((if s.rebuilds.isCancelled ticket.token then
      (s.setRefresh i (.finished ticket .cancelled), [])
      else (s.setRefresh i (.asking ticket settings inquiry s.timeoutMs),
        [Outgoing.request i r])).1).stepsLeft < s.stepsLeft := by
    intro r
    split
    · exact hstage _ (Nat.zero_le _)
    · exact hstage _ (Nat.le_refl _)
  cases inquiry with
  | askFolder => exact hask _
  | askVersion folder => exact hask _
  | resolved selection => exact hstage _ (Nat.le_refl 2)

theorem stepsLeft_hear_lt {ticket : Rebuild.Ticket} {settings : Settings} {inquiry : Inquiry}
    {timeoutMs : Nat} {r : Request}
    (hi : s.refreshes[i]? = some (.asking ticket settings inquiry timeoutMs))
    (hr : inquiry.request? = some r) (result : Except RequestError Json) :
    (s.hear i ticket settings inquiry result).1.stepsLeft < s.stepsLeft := by
  have hended : ∀ report, ranks (s.refreshes.set i (.finished ticket report)) < s.stepsLeft :=
    fun report => ranks_set_lt hi (Nat.succ_pos _)
  match result with
  | .ok value =>
    exact stepsLeft_proceed_lt hi ticket settings
      (Nat.add_lt_add_right (Inquiry.rank_answer_lt settings value hr) 2)
  | .error (.cancelled _) => exact hended _
  | .error (.timedOut _ _) => exact hended _
  | .error (.failed _ _) => exact hended _

/-- **Every step brings the refreshes nearer to their end.** -/
theorem stepsLeft_lt_of_move {m : Move} {sent : List Outgoing}
    (h : s.move i m = some (s', sent)) : s'.stepsLeft < s.stepsLeft := by
  unfold move at h
  split at h
  · next hi =>
    cases h
    exact ranks_set_lt hi (Nat.lt_succ_self 5)
  · next ticket hi =>
    have hrank : (Inquiry.start s.settings).rank + 2 < (Refresh.begun ticket).rank :=
      Nat.lt_succ_of_le (Nat.add_le_add_right (Inquiry.rank_start_le s.settings) 2)
    have hlt := stepsLeft_proceed_lt hi ticket s.settings hrank
    rw [Option.some.inj h] at hlt
    exact hlt
  · next ticket settings inquiry timeoutMs ending hi =>
    split at h
    · cases h
    · next r hr =>
      have hlt := stepsLeft_hear_lt hi hr (ending.result r timeoutMs)
      rw [Option.some.inj (Option.ite_none_right_eq_some.1 h).2] at hlt
      exact hlt
  · next hi =>
    cases h
    exact ranks_set_lt hi (Nat.lt_succ_self 1)
  · next hi =>
    cases h
    exact ranks_set_lt hi (Nat.lt_succ_self 0)
  · cases h

end Server

end OpcodeLens
