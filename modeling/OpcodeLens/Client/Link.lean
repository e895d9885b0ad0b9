import OpcodeLens.Client.Inquiry

/-!
# The link to the editor

The link sends requests one at a time and knows how long to wait for an answer. Waiting times are
whole milliseconds of at most 64 bits.
-/

namespace OpcodeLens

/-- A link to an editor on a clock. -/
structure Link where
  /-- How long to wait for an answer, in milliseconds. -/
  timeoutMs : Nat
  /-- How the editor treats requests. -/
  editor : Request → Behaviour
  /-- The time. -/
  now : Nat := 0

namespace Link

/-- The longest waiting time. -/
def maxTimeout : Nat := Nat.pow 2 64 - 1

/-- Sets the waiting time, in seconds and nanoseconds; a fraction of a millisecond is dropped. -/
def setTimeout (link : Link) (seconds nanoseconds : Nat) : Link :=
  { link with timeoutMs := min (seconds * 1000 + nanoseconds / 1000000) maxTimeout }

/-- The outcome of using the link: a result, and the requests that were sent. -/
structure Use (α : Type) where
  /-- The result. -/
  result : Except RequestError α
  /-- The requests that were sent, in order. -/
  sent : List Request
  /-- The link afterwards. -/
  link : Link

/-- Sends a request that is cancelled `cancel` milliseconds from now, if at all. -/
def call (link : Link) (r : Request) (cancel : Option Nat) : Use Json :=
  let cancelAt := cancel.map (link.now + ·)
  if cancelledBy cancelAt link.now then ⟨.error (.cancelled r.method), [], link⟩
  else
    let (due, ending) := Request.run (link.editor r) link.timeoutMs cancelAt link.now
    ⟨ending.result r link.timeoutMs, [r], { link with now := due }⟩

/-- Asks for the edition; an empty one counts as none. -/
def version (link : Link) (cancel : Option Nat) : Use (Option Text) :=
  let use := link.call .version cancel
  { use with result := use.result.map Inquiry.nonEmptyText? }

/-- Asks for a stored value; `null` counts as none. -/
def getStored (link : Link) (key : StorageKey) (cancel : Option Nat) : Use (Option Json) :=
  let use := link.call (.getStored key) cancel
  { use with result := use.result.map fun value => if value.isNull then none else some value }

/-- Stores a value. -/
def setStored (link : Link) (key : StorageKey) (value : Json) (cancel : Option Nat) : Use Unit :=
  let use := link.call (.setStored key value) cancel
  { use with result := use.result.map fun _ => () }

/-- Finds out what to load under the given settings. -/
def selection (link : Link) (settings : Settings) (cancel : Option Nat) : Use (Option Selection) :=
  let cancelAt := cancel.map (link.now + ·)
  let run := Inquiry.run ⟨settings, link.editor, fun _ => link.timeoutMs, fun _ => 0, cancelAt⟩
    link.now
  ⟨run.result, run.sent.map (·.request), { link with now := run.time }⟩

end Link

end OpcodeLens
