import CompileWatch.Bus.Basic
import CompileWatch.Event.Basic

/-!
# Accounts of events

How a simulation accounts for the events of one phase. Within a phase the events of attempts come
first, then those of runs, of retrievals and of subscribers; each group has an order of its own,
and events that are equal in it keep the order in which they were published.
-/
namespace CompileWatch

/-- The group of an event: attempts, runs, retrievals, subscribers. -/
def Event.group (e : Event) : Nat :=
  match e.kind with
  | .attemptPublished | .attemptDiscarded | .compilerPanicked => 0
  | .engineStarted | .engineStopped | .graceExceeded | .sourceChanged | .attemptStarting
  | .attemptSuperseded => 1
  | .retrieveMatched | .retrieveFailed | .retrieveTimedOut => 2
  | .subscriberPanicked | .subscriberOverflow => 3

/-- What the events of a group are ordered by: two numbers and two texts. -/
def Event.sortKey (e : Event) : Nat × String × String × Nat :=
  match e.group with
  | 1 => (e.run.getD 0, "", "", 0)
  | 2 => (0, e.source.getD "", e.kind.name, e.elapsed.getD 0)
  | 3 => (0, e.subscriber.getD "", "", 0)
  | _ => (0, "", "", 0)

/-- Does one sort key come no later than the other? -/
def keyLE : Nat × String × String × Nat → Nat × String × String × Nat → Bool
  | (a₁, a₂, a₃, a₄), (b₁, b₂, b₃, b₄) =>
    if a₁ ≠ b₁ then a₁ < b₁
    else if a₂ ≠ b₂ then a₂ < b₂
    else if a₃ ≠ b₃ then a₃ < b₃
    else a₄ ≤ b₄

/-- Does the event come no later than the other in the account of a phase? -/
def Event.comesBefore (e f : Event) : Bool :=
  if e.group ≠ f.group then e.group < f.group else keyLE e.sortKey f.sortKey

/-- The events of a phase in the order in which they are accounted for. -/
def Event.inOrder (events : List Event) : List Event := events.mergeSort Event.comesBefore

/-- An entry in an account of events. -/
inductive AccountEntry where
  | event (e : Event)
  | lagged (lost : Nat)
  deriving DecidableEq, Repr

/-- What a receiver got: how many events it lost, and the events. -/
def tally (got : List (Reception Event)) : Nat × List Event :=
  ((got.map Reception.lost).foldr (· + ·) 0, got.filterMap Reception.item?)

/-- The account of what a receiver got in one phase: first the loss, if there was one. -/
def phaseAccount (got : List (Reception Event)) : List AccountEntry :=
  let (lost, events) := tally got
  (if lost = 0 then [] else [.lagged lost]) ++ (Event.inOrder events).map .event

/-- A stretch of equal events in what a subscriber saw. -/
structure Sighting where
  kind : EventKind
  generation : Option Generation
  count : Nat
  deriving DecidableEq, Repr

/-- Adds an event in front of a list of stretches. -/
def Sighting.cons (e : Event) : List Sighting → List Sighting
  | [] => [⟨e.kind, e.generation, 1⟩]
  | s :: rest =>
    if s.kind = e.kind ∧ s.generation = e.generation then { s with count := s.count + 1 } :: rest
    else ⟨e.kind, e.generation, 1⟩ :: s :: rest

/-- What a subscriber saw, with equal neighbours joined. -/
def Sighting.ofEvents (events : List Event) : List Sighting := events.foldr Sighting.cons []

end CompileWatch
