import OpcodeLens.Json.Basic
import OpcodeLens.Workspace.Edition

/-!
# Settings

What the user can set: the install folder, the edition, how long to wait for answers of the editor,
and further entries of the edition table. Settings arrive as a JSON value (`Settings.ofJson?`):
`null` means the defaults, the settings may stand under a key of their own, they may be written as
an array in the order of the fields, and of repeated names the last one counts.
-/

namespace OpcodeLens

/-- What the user can set. -/
structure Settings where
  /-- The install folder. -/
  folderPath : Option Text := none
  /-- The edition. -/
  gameVersion : Option Text := none
  /-- How long to wait for an answer of the editor, in milliseconds. -/
  requestTimeoutMs : Nat := 5000
  /-- Further entries of the edition table. -/
  versions : OrderedMap Text := {}
  deriving Repr

namespace Settings

/-- The table of editions under the settings. -/
def table (s : Settings) : EditionTable := EditionTable.merged s.versions.entries

/-! ### Decoding -/

/-- The settings under the key where they may stand. -/
def wrapped? (json : Json) : Option Json := json.field? "sannyBuilder"

/-- Is `a` before `b` in the order of code points? -/
def precedes (a b : Text) : Bool := a < b

/-- Inserts an entry into a list that is sorted by name, in place of an entry of that name. -/
def insertSorted (name : Text) (value : Json) : List (Text × Json) → List (Text × Json)
  | [] => [(name, value)]
  | (key, old) :: rest =>
    if key = name then (name, value) :: rest
    else if precedes name key then (name, value) :: (key, old) :: rest
    else (key, old) :: insertSorted name value rest

/-- The members of an object sorted by name, with the last value of each. -/
def sortedMembers (members : List (Option Text × Json)) : List (Text × Json) :=
  members.foldl (fun list (key, value) => insertSorted (key.getD []) value list) []

/-- A text that may be missing or `null`. -/
def optionalText? : Option Json → Option (Option Text)
  | none => some none
  | some .null => some none
  | some value => value.asText?.map some

/-- A number of milliseconds: a plain unsigned integer of at most 64 bits. -/
def milliseconds? : Option Json → Option Nat
  | none => some 5000
  | some value => value.asNat?.filter (· < Nat.pow 2 64)

/-- Entries of the edition table. -/
def entries? : Option Json → Option (List (Text × Text))
  | none => some []
  | some (.obj members) =>
    (sortedMembers members).mapM fun (name, value) => value.asText?.map fun file => (name, file)
  | some _ => none

/-- The settings with the given fields. -/
def ofFields? (folder version timeout versions : Option Json) : Option Settings := do
  some {
    folderPath := ← optionalText? folder
    gameVersion := ← optionalText? version
    requestTimeoutMs := ← milliseconds? timeout
    versions := ⟨← entries? versions⟩ }

/-- The settings in a JSON value that is not wrapped. -/
def ofPlain? : Json → Option Settings
  | .null => some {}
  | .obj members =>
    let json := Json.obj members
    ofFields? (json.field? "folderPath") (json.field? "gameVersion")
      (json.field? "requestTimeoutMs") (json.field? "versions")
  | .arr items =>
    if items.length ≤ 4 then ofFields? items[0]? items[1]? items[2]? items[3]? else none
  | _ => none

/-- The settings in a JSON value; `none` if it is no valid payload. -/
def ofJson? (json : Json) : Option Settings :=
  match wrapped? json with
  | some inner => ofPlain? inner
  | none => ofPlain? json

end Settings

end OpcodeLens
