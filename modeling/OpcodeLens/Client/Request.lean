import OpcodeLens.Json.Value

/-!
# Requests to the editor

The server asks its editor for the edition and for stored values. A request ends when the editor
answers, when its time is up, or when it is cancelled, whichever comes first (`Request.run`); a
request whose cancellation has come before it starts is not sent at all.
-/

namespace OpcodeLens

/-- The keys of the editor's storage. -/
inductive StorageKey where
  /-- The edition. -/
  | gtaVersion
  /-- The install folder. -/
  | folderPath
  deriving DecidableEq, Repr

/-- The name of a storage key. -/
def StorageKey.name : StorageKey → Text
  | .gtaVersion => "gtaVersion".toList
  | .folderPath => "sb4FolderPath".toList

/-- A request to the editor. -/
inductive Request where
  /-- Which edition is chosen? -/
  | version
  /-- What is stored under a key? -/
  | getStored (key : StorageKey)
  /-- Store a value under a key. -/
  | setStored (key : StorageKey) (value : Json)

namespace Request

/-- The method of a request. -/
def method : Request → Text
  | .version => "sb4/gta-version/get-identifier".toList
  | .getStored _ => "sb4/storage/get".toList
  | .setStored _ _ => "sb4/storage/set".toList

/-- The parameters of a request. -/
def params : Request → Json
  | .version => .null
  | .getStored key => .object [("key", .text key.name)]
  | .setStored key value => .object [("key", .text key.name), ("value", value)]

/-- Does the request take the value as its answer? What it does not take is reported in words. -/
def accept (r : Request) (value : Json) : Except Text Json :=
  let refuse (expected : String) : Except Text Json :=
    .error ("invalid type: ".toList ++ value.describe ++ ", expected ".toList ++ expected.toList)
  match r, value with
  | .version, .null => .ok value
  | .version, .str _ => .ok value
  | .version, _ => refuse "a string"
  | .getStored _, _ => .ok value
  | .setStored _ _, .null => .ok value
  | .setStored _ _, _ => refuse "unit"

end Request

/-! ### Durations -/

/-- A number of milliseconds in words: seconds with their fraction from one second on, milliseconds
below. -/
def durationText (ms : Nat) : Text :=
  if ms = 0 then "0ns".toList
  else if ms < 1000 then Text.ofNat ms ++ ['m', 's']
  else
    let thousandths := ms % 1000
    let digits := List.replicate (3 - (Text.ofNat thousandths).length) '0' ++ Text.ofNat thousandths
    let fraction := (digits.reverse.dropWhile (· = '0')).reverse
    Text.ofNat (ms / 1000) ++ (if thousandths = 0 then [] else '.' :: fraction) ++ ['s']

/-! ### Endings -/

/-- Why a request has no answer. -/
inductive RequestError where
  /-- Its time was up. -/
  | timedOut (method : Text) (afterMs : Nat)
  /-- It was cancelled. -/
  | cancelled (method : Text)
  /-- The editor refused it. -/
  | failed (method : Text) (reason : Text)
  deriving DecidableEq, Repr

/-- The error in words. -/
def RequestError.message : RequestError → Text
  | .timedOut method afterMs =>
    "request `".toList ++ method ++ "` timed out after ".toList ++ durationText afterMs
  | .cancelled method => "request `".toList ++ method ++ "` was cancelled".toList
  | .failed method reason => "request `".toList ++ method ++ "` failed: ".toList ++ reason

/-- How a request ends. -/
inductive Ending where
  /-- The editor answers with a value. -/
  | answered (value : Json)
  /-- The editor answers with an error. -/
  | refused (reason : Text)
  /-- Time is up. -/
  | timedOut
  /-- It is cancelled. -/
  | cancelled

/-- What the server learns from the ending of a request that had `timeoutMs` milliseconds. -/
def Ending.result (r : Request) (timeoutMs : Nat) : Ending → Except RequestError Json
  | .answered value => (r.accept value).mapError (.failed r.method)
  | .refused reason => .error (.failed r.method reason)
  | .timedOut => .error (.timedOut r.method timeoutMs)
  | .cancelled => .error (.cancelled r.method)

/-- How an editor treats a request. -/
inductive Behaviour where
  /-- It answers with a value after some milliseconds. -/
  | answer (value : Json) (afterMs : Nat)
  /-- It answers with an error after some milliseconds. -/
  | refuse (reason : Text) (afterMs : Nat)
  /-- It never answers. -/
  | hang

/-- When an editor answers a request that is sent at `now`, and how. -/
def Behaviour.reply? (now : Nat) : Behaviour → Option (Nat × Ending)
  | .answer value afterMs => some (now + afterMs, .answered value)
  | .refuse reason afterMs => some (now + afterMs, .refused reason)
  | .hang => none

/-- When a request ends that is sent at `now`, if it is not cancelled, and how: with the editor's
reply, if that comes in time. -/
def Behaviour.finish (b : Behaviour) (now timeoutMs : Nat) : Nat × Ending :=
  match b.reply? now with
  | some (due, ending) =>
    if due ≤ now + timeoutMs then (due, ending) else (now + timeoutMs, .timedOut)
  | none => (now + timeoutMs, .timedOut)

/-- Has the cancellation come by the given time? -/
def cancelledBy (cancelAt : Option Nat) (time : Nat) : Bool := cancelAt.any (· ≤ time)

/-- When a request ends that is sent at `now`, and how. -/
def Request.run (b : Behaviour) (timeoutMs : Nat) (cancelAt : Option Nat) (now : Nat) :
    Nat × Ending :=
  let (due, ending) := b.finish now timeoutMs
  if cancelledBy cancelAt due then (max now (cancelAt.getD now), .cancelled) else (due, ending)

end OpcodeLens
