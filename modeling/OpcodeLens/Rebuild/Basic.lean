import OpcodeLens.Workspace.Loading

/-!
# Rebuilding the catalogue

A `Rebuild.Service` owns the published catalogue. Each rebuild takes a ticket; starting a new one
cancels the token of the one before it, and only the newest ticket may publish. A rebuild ends by
publishing what it has loaded, by publishing an empty catalogue if nothing is configured, or by
being abandoned, and until then the service is loading. What is published stays in place until
something else is.
-/

namespace OpcodeLens

namespace Rebuild

/-- What the service is doing. -/
inductive State where
  /-- The published catalogue is empty. -/
  | empty
  /-- The newest rebuild has not ended. -/
  | loading
  /-- The published catalogue is not empty. -/
  | ready
  deriving DecidableEq, Repr

/-- A token by which a rebuild learns that it has been cancelled. Tokens are numbered as they are
made. -/
abbrev CancelToken := Nat

/-- The right to publish, until a newer ticket is issued. -/
structure Ticket where
  /-- The number of the rebuild, from one. -/
  generation : Nat
  /-- Cancelled as soon as a newer rebuild starts. -/
  token : CancelToken
  deriving DecidableEq, Repr

/-- A published catalogue. Two snapshots are the same object if they have the same stamp. -/
structure Snapshot where
  /-- The number of the publication. -/
  stamp : Nat := 0
  /-- The catalogue. -/
  catalogue : Catalogue := {}

/-- How a rebuild ends that does not fail. -/
inductive Outcome where
  /-- A catalogue with so many command names, classes and enumerations was published. -/
  | published (opcodes classes enums : Nat)
  /-- Nothing is configured, and an empty catalogue was published. -/
  | notConfigured
  /-- There is a newer rebuild. -/
  | superseded
  deriving DecidableEq, Repr

/-- The owner of the published catalogue. -/
structure Service where
  /-- What is published. -/
  snapshot : Snapshot := {}
  /-- The number of rebuilds started. -/
  generation : Nat := 0
  /-- What the service is doing. -/
  state : State := .empty
  /-- The token of the newest rebuild. -/
  current : CancelToken := 0
  /-- The tokens that have been cancelled. -/
  cancelled : List CancelToken := []

namespace Service

/-- The state of a service that has published a catalogue and has nothing else to do. -/
def restState (cat : Catalogue) : State := if cat.isEmpty then .empty else .ready

/-- Is the ticket the newest one? -/
def isCurrent (s : Service) (t : Ticket) : Bool := s.generation = t.generation

/-- Has the token been cancelled? -/
def isCancelled (s : Service) (token : CancelToken) : Bool := s.cancelled.elem token

/-- Starts a rebuild. -/
def begin (s : Service) : Ticket × Service :=
  let token := s.current + 1
  (⟨s.generation + 1, token⟩,
    { s with
      generation := s.generation + 1
      state := .loading
      current := token
      cancelled := s.current :: s.cancelled })

/-- Publishes a catalogue, if the ticket is the newest one. -/
def publish (s : Service) (t : Ticket) (cat : Catalogue) : Outcome × Service :=
  if s.isCurrent t then
    (.published cat.byName.size cat.byClass.size cat.enums.size,
      { s with state := restState cat, snapshot := ⟨s.snapshot.stamp + 1, cat⟩ })
  else (.superseded, s)

/-- Gives up a rebuild without publishing. -/
def abandon (s : Service) (t : Ticket) : Service :=
  if s.isCurrent t then { s with state := restState s.snapshot.catalogue } else s

/-- Ends a rebuild with what it has loaded, which is `none` if nothing is configured. -/
def settle (s : Service) (t : Ticket) (loaded : Option (Except LoadError Catalogue)) :
    Except LoadError Outcome × Service :=
  match loaded with
  | none =>
    match s.publish t {} with
    | (.published .., s) => (.ok .notConfigured, s)
    | (outcome, s) => (.ok outcome, s)
  | some (.ok cat) =>
    let (outcome, s) := s.publish t cat
    (.ok outcome, s)
  | some (.error e) => (.error e, s.abandon t)

/-- Loads a selection and ends the rebuild with it. -/
def complete (s : Service) (read : Reader) (t : Ticket) (selection : Option Selection) :
    Except LoadError Outcome × Service :=
  s.settle t (selection.map (Catalogue.load read))

/-- Starts and ends a rebuild. -/
def rebuild (s : Service) (read : Reader) (selection : Option Selection) :
    Except LoadError Outcome × Service :=
  let (t, s) := s.begin
  s.complete read t selection

end Service

end Rebuild

end OpcodeLens
