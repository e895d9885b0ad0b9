import OpcodeLens.Text.Basic

/-!
# Ordered maps

A map from names to values that remembers in which order its names came in. Changing the value of a
name that is already there leaves the name in its place; a new name goes to the end.
-/

namespace OpcodeLens

/-- A map from names to values, in the order in which the names came in. -/
structure OrderedMap (α : Type) where
  /-- The names with their values; no name stands twice. -/
  entries : List (Text × α) := []
  deriving Repr

namespace OrderedMap

variable {α : Type}

/-- The entries after the value of `key` is changed from its old value, or from none. -/
def alterEntries (key : Text) (change : Option α → α) : List (Text × α) → List (Text × α)
  | [] => [(key, change none)]
  | (k, a) :: rest =>
    if k = key then (k, change (some a)) :: rest else (k, a) :: alterEntries key change rest

/-- The map after the value of `key` is changed from its old value, or from none. -/
def alter (m : OrderedMap α) (key : Text) (change : Option α → α) : OrderedMap α :=
  ⟨alterEntries key change m.entries⟩

/-- Gives `key` a value, in place of the one it has. -/
def insert (m : OrderedMap α) (key : Text) (a : α) : OrderedMap α := m.alter key fun _ => a

/-- Adds a value to the list that `key` has. -/
def push (m : OrderedMap (List α)) (key : Text) (a : α) : OrderedMap (List α) :=
  m.alter key fun old => old.getD [] ++ [a]

/-- The map without a name. -/
def erase (m : OrderedMap α) (key : Text) : OrderedMap α :=
  ⟨m.entries.filter fun entry => entry.1 ≠ key⟩

/-- The value of a name. -/
def get? (m : OrderedMap α) (key : Text) : Option α :=
  (m.entries.find? fun entry => entry.1 = key).map (·.2)

/-- The names, in order. -/
def keys (m : OrderedMap α) : List Text := m.entries.map (·.1)

/-- The values, in the order of their names. -/
def values (m : OrderedMap α) : List α := m.entries.map (·.2)

/-- The number of names. -/
def size (m : OrderedMap α) : Nat := m.entries.length

/-- Is there no name in the map? -/
def isEmpty (m : OrderedMap α) : Bool := m.entries.isEmpty

/-- The map after the entries of a list are inserted one by one. -/
def insertAll (m : OrderedMap α) (entries : List (Text × α)) : OrderedMap α :=
  entries.foldl (fun m entry => m.insert entry.1 entry.2) m

/-- The entries with a function applied to each value of their lists. -/
def mapEntries {β : Type} (f : β → α) (entries : List (Text × List β)) : List (Text × List α) :=
  entries.map fun entry => (entry.1, entry.2.map f)

/-- The map with a function applied to each value of its lists. -/
def mapLists {β : Type} (f : β → α) (m : OrderedMap (List β)) : OrderedMap (List α) :=
  ⟨mapEntries f m.entries⟩

/-- The map of a list of entries; of repeated names the last value counts and the first place. -/
def ofList (entries : List (Text × α)) : OrderedMap α := insertAll {} entries

end OrderedMap

end OpcodeLens
