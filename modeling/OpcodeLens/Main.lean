import OpcodeLens.Server.Session
import OpcodeLens.Wire.Decode
import OpcodeLens.Wire.Encode
import OpcodeLens.Wire.Envelope

/-!
# The server on standard input and output

Reads messages from standard input and writes messages to standard output. What the server does is
said by `Session`; here messages are received, files are read, and the clock is that of the machine.
-/

namespace OpcodeLens

namespace Main

/-- A running server. -/
structure Live where
  /-- The session. -/
  session : Session := {}
  /-- The number of calls made to the editor. -/
  calls : Nat := 0
  /-- The calls that are open: their identifiers, and the refreshes that wait for them. -/
  waiting : List (Nat × Nat) := []

/-! ### Messages -/

/-- Writes a message. -/
def send (json : Json) : IO Unit := do
  let out ← IO.getStdout
  out.putStr (String.ofList (Envelope.framed json))
  out.flush

/-- Writes what the server sends of its own accord. -/
def sendOutgoing (live : Live) (o : Outgoing) : IO Live := do
  let (method, params) := Wire.outgoing o
  match o with
  | .request i _ =>
    send (Envelope.callOut live.calls method params)
    let others := live.waiting.filter (·.2 ≠ i)
    return { live with calls := live.calls + 1, waiting := (live.calls, i) :: others }
  | _ =>
    send (Envelope.noteOut method params)
    return live

/-- Reads a header: the length of the message, or nothing at the end of the input. -/
partial def readHeader (input : IO.FS.Stream) (length : Nat) : IO (Option Nat) := do
  let line ← input.getLine
  if line.isEmpty then return none
  let text := line.toList.filter fun c => c ≠ '\r' && c ≠ '\n'
  if text.isEmpty then return some length
  readHeader input ((Envelope.lengthOfHeader? text).getD length)

/-- Reads the given number of bytes. -/
partial def readBytes (input : IO.FS.Stream) (n : Nat) (done : ByteArray) : IO ByteArray := do
  if n ≤ done.size then return done
  let more ← input.read (n - done.size).toUSize
  if more.isEmpty then return done
  readBytes input n (done ++ more)

/-- Reads a message; nothing at the end of the input. -/
def receive (input : IO.FS.Stream) : IO (Option Json) := do
  match ← readHeader input 0 with
  | none => return none
  | some n =>
    let bytes ← readBytes input n .empty
    return some (((String.fromUTF8? bytes).bind fun s => Json.readValue? s.toList).getD .null)

/-! ### Files -/

/-- Reads a file. -/
def readFile (path : Text) : IO ReadResult := do
  try
    let bytes ← IO.FS.readBinFile (String.ofList path)
    return FileTree.textOf bytes
  catch
    | .noFileOrDirectory .. => return .ok none
    | e => return .error (.other (toString e).toList)

/-- The selections that are about to be loaded. -/
def aboutToLoad (s : Session) : List Selection :=
  s.server.refreshes.filterMap fun stage =>
    match stage with
    | .resolved _ _ selection => selection
    | _ => none

/-- The session with the files at hand that are about to be loaded. -/
def withSources (s : Session) : IO Session := do
  let paths := (aboutToLoad s).flatMap fun selection =>
    [selection.definitionsPath, selection.enumsPath]
  let results ← paths.mapM fun path => do return (path, ← readFile path)
  return { s with read := fun path => (results.lookup path).getD (.ok none) }

/-! ### The loop -/

/-- Lets everything happen that can happen at the present time. -/
partial def settle (live : Live) : IO Live := do
  let now ← IO.monoMsNow
  let session ← withSources { live.session with now := now }
  match session.step? with
  | none => return { live with session := session }
  | some (next, sent) => settle (← sent.foldlM sendOutgoing { live with session := next })

/-- Handles a call or a note. -/
def handle (live : Live) (id : Option Json) (method : Text) (params : Json) : IO Live := do
  let respond (value : Json) : IO Unit :=
    match id with
    | some id => send (Envelope.result id value)
    | none => return
  let tell (n : Notice) : IO Live := do
    let (server, sent) := live.session.server.notice n
    sent.foldlM sendOutgoing { live with session := { live.session with server := server } }
  match Wire.incoming? (String.ofList method) params, id with
  | some (.opening settings), _ =>
    let next ← tell (.opening settings)
    respond Wire.capabilities
    return next
  | some (.notice n), _ => tell n
  | some (.question q), _ =>
    respond (Wire.answer live.session.server q)
    return live
  | some .shutdown, _ =>
    respond .null
    return live
  | none, some id =>
    send (Envelope.unknownMethod id)
    return live
  | none, none => return live

/-- Handles a message. -/
def handleMessage (live : Live) (json : Json) : IO Live :=
  match Envelope.ofJson? json with
  | some (.call id method params) => handle live (some id) method params
  | some (.note method params) => handle live none method params
  | some (.answer id result) =>
    match live.waiting.lookup id with
    | none => return live
    | some i =>
      let ending := match result with
        | .ok value => .answered value
        | .error reason => .refused reason
      return { live with
        session := live.session.reply i ending
        waiting := live.waiting.filter (·.1 ≠ id) }
  | none => return live

/-- Is the message the one that ends the server? -/
def isExit (json : Json) : Bool := (json.field? "method").bind Json.asText? = some "exit".toList

/-- Waits for a message while time passes. -/
partial def await (live : Live) (message : Task (Except IO.Error (Option Json))) :
    IO (Live × Option Json) := do
  let live ← settle live
  if ← IO.hasFinished message then
    match message.get with
    | .ok json => return (live, json)
    | .error _ => return (live, none)
  else
    IO.sleep 5
    await live message

/-- Handles messages until there are no more. -/
partial def serve (input : IO.FS.Stream) (live : Live) : IO Unit := do
  let (live, message) ← await live (← IO.asTask (receive input))
  match message with
  | none => return
  | some json => if isExit json then return else serve input (← handleMessage live json)

end Main

end OpcodeLens

/-- Serves an editor on standard input and output. -/
def main : IO Unit := do
  OpcodeLens.Main.serve (← IO.getStdin) {}
