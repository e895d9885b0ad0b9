import OpcodeLens.Client.Request
import OpcodeLens.Workspace.Settings

/-!
# Finding out what to load

The folder and the edition to load come from the settings; what is missing there is asked of the
editor, first the folder and then the edition. An inquiry (`Inquiry`) is where this stands: it waits
for an answer, or it is resolved. It resolves to nothing as soon as the folder or the edition turns
out to be unknown.
-/

namespace OpcodeLens

/-- Where the search for the folder and the edition stands. -/
inductive Inquiry where
  /-- The folder is asked for. -/
  | askFolder
  /-- The edition is asked for. -/
  | askVersion (folder : Text)
  /-- It is known what to load, or that there is nothing to load. -/
  | resolved (selection : Option Selection)
  deriving DecidableEq, Repr

namespace Inquiry

/-- The request whose answer the inquiry waits for. -/
def request? : Inquiry → Option Request
  | .askFolder => some (.getStored .folderPath)
  | .askVersion _ => some .version
  | .resolved _ => none

/-- The text of an answer, if it is one and not empty. -/
def nonEmptyText? (value : Json) : Option Text := value.asText?.filter (!·.isEmpty)

/-- The inquiry once the folder is known. -/
def withFolder (settings : Settings) (folder : Text) : Inquiry :=
  match settings.gameVersion with
  | some version => .resolved (some (settings.table.select folder version))
  | none => .askVersion folder

/-- The inquiry at its start. -/
def start (settings : Settings) : Inquiry :=
  match settings.folderPath with
  | some folder => withFolder settings folder
  | none => .askFolder

/-- The inquiry after an answer. -/
def answer (settings : Settings) (inquiry : Inquiry) (value : Json) : Inquiry :=
  match inquiry with
  | .askFolder =>
    match nonEmptyText? value with
    | some folder => withFolder settings folder
    | none => .resolved none
  | .askVersion folder =>
    .resolved ((nonEmptyText? value).map fun version => settings.table.select folder version)
  | .resolved selection => .resolved selection

/-- The number of answers the inquiry may still need. -/
def rank : Inquiry → Nat
  | .askFolder => 2
  | .askVersion _ => 1
  | .resolved _ => 0

theorem rank_withFolder_le (settings : Settings) (folder : Text) :
    (withFolder settings folder).rank ≤ 1 := by
  unfold withFolder
  split <;> simp [rank]

theorem rank_start_le (settings : Settings) : (start settings).rank ≤ 2 := by
  unfold start
  split
  · exact Nat.le_succ_of_le (rank_withFolder_le settings _)
  · exact Nat.le_refl 2

/-- Every answer brings the inquiry nearer to its end. -/
theorem rank_answer_lt (settings : Settings) {inquiry : Inquiry} {r : Request} (value : Json)
    (h : inquiry.request? = some r) : (answer settings inquiry value).rank < inquiry.rank := by
  cases inquiry with
  | askFolder =>
    simp only [answer]
    split
    · exact Nat.lt_succ_of_le (rank_withFolder_le settings _)
    · simp [rank]
  | askVersion folder => simp [answer, rank]
  | resolved selection => simp [request?] at h

/-! ### Running an inquiry -/

/-- The circumstances of an inquiry. -/
structure Setting where
  /-- The settings. -/
  settings : Settings
  /-- How the editor treats requests. -/
  editor : Request → Behaviour
  /-- How long to wait for an answer to a request that is sent at the given time. -/
  timeoutMs : Nat → Nat
  /-- How long after taking an answer at the given time the inquiry goes on. -/
  pauseMs : Nat → Nat
  /-- When the inquiry is cancelled. -/
  cancelAt : Option Nat

/-- When a request ends that is sent at `now`, and what is learnt from it. -/
def Setting.outcome (c : Setting) (r : Request) (now : Nat) : Nat × Except RequestError Json :=
  let (due, ending) := Request.run (c.editor r) (c.timeoutMs now) c.cancelAt now
  (due, ending.result r (c.timeoutMs now))

/-- A request that was sent, and when. -/
structure Dispatch where
  /-- When it was sent. -/
  time : Nat
  /-- The request. -/
  request : Request

/-- The end of an inquiry. -/
structure Run where
  /-- What was found out. -/
  result : Except RequestError (Option Selection)
  /-- The requests that were sent, in order. -/
  sent : List Dispatch
  /-- When the inquiry ended. -/
  time : Nat

/-- Runs an inquiry from the time `now` on. -/
def runFrom (c : Setting) (inquiry : Inquiry) (now : Nat) : Run :=
  match h : inquiry.request? with
  | none =>
    match inquiry with
    | .resolved selection => ⟨.ok selection, [], now⟩
    | _ => ⟨.ok none, [], now⟩
  | some r =>
    if cancelledBy c.cancelAt now then ⟨.error (.cancelled r.method), [], now⟩
    else
      match c.outcome r now with
      | (due, .error e) => ⟨.error e, [⟨now, r⟩], due⟩
      | (due, .ok value) =>
        have := rank_answer_lt c.settings value h
        let rest := runFrom c (answer c.settings inquiry value) (due + c.pauseMs due)
        { rest with sent := ⟨now, r⟩ :: rest.sent }
termination_by inquiry.rank

/-- Runs an inquiry from its start. -/
def run (c : Setting) (now : Nat) : Run := runFrom c (start c.settings) now

end Inquiry

end OpcodeLens
