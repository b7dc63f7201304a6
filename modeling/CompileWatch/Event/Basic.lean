import CompileWatch.Artifact
import CompileWatch.Time.Span

/-!
# Events

Everything that happens in the service is announced as an event: its kind, and the details that
apply to it. Events are numbered when they are made, so that the numbers order them by making,
whatever the order in which they arrive.
-/
namespace CompileWatch

inductive EventKind where
  | engineStarted
  | engineStopped
  | graceExceeded
  | sourceChanged
  | attemptStarting
  | attemptSuperseded
  | attemptPublished
  | attemptDiscarded
  | compilerPanicked
  | retrieveMatched
  | retrieveFailed
  | retrieveTimedOut
  | subscriberPanicked
  | subscriberOverflow
  deriving DecidableEq, Repr, Inhabited

namespace EventKind

def all : List EventKind :=
  [engineStarted, engineStopped, graceExceeded, sourceChanged, attemptStarting, attemptSuperseded,
    attemptPublished, attemptDiscarded, compilerPanicked, retrieveMatched, retrieveFailed,
    retrieveTimedOut, subscriberPanicked, subscriberOverflow]

def name : EventKind → String
  | engineStarted => "EngineStarted"
  | engineStopped => "EngineStopped"
  | graceExceeded => "GraceExceeded"
  | sourceChanged => "SourceChanged"
  | attemptStarting => "AttemptStarting"
  | attemptSuperseded => "AttemptSuperseded"
  | attemptPublished => "AttemptPublished"
  | attemptDiscarded => "AttemptDiscarded"
  | compilerPanicked => "CompilerPanicked"
  | retrieveMatched => "RetrieveMatched"
  | retrieveFailed => "RetrieveFailed"
  | retrieveTimedOut => "RetrieveTimedOut"
  | subscriberPanicked => "SubscriberPanicked"
  | subscriberOverflow => "SubscriberOverflow"

/-- The kind of a given name. -/
def ofName? (name : String) : Option EventKind := all.find? (·.name == name)

theorem mem_all (kind : EventKind) : kind ∈ all := by
  cases kind <;> decide

end EventKind

/-- An event. Which details are set depends on the kind. -/
structure Event where
  kind : EventKind
  run : Option Nat := none
  generation : Option Generation := none
  source : Option String := none
  /-- How long something took, in milliseconds. -/
  elapsed : Option Nat := none
  reason : Option String := none
  subscriber : Option String := none
  deriving DecidableEq, Repr, Inhabited

namespace Event

/-- The most milliseconds that an event can carry. -/
def longestElapsed : Nat := Nat.pow 2 32 - 1

/-- Attaches a duration, in whole milliseconds and capped at the longest. -/
def withElapsed (e : Event) (d : Span) : Event :=
  { e with elapsed := some (min d.millis longestElapsed) }

/-- One detail that can be attached to an event. -/
inductive Detail where
  | run (r : Nat)
  | generation (g : Generation)
  | source (text : String)
  | elapsed (d : Span)
  | reason (text : String)
  deriving DecidableEq, Repr

/-- Attaches a detail, in place of an earlier one of the same sort. -/
def attach (e : Event) : Detail → Event
  | .run r => { e with run := some r }
  | .generation g => { e with generation := some g }
  | .source text => { e with source := some text }
  | .elapsed d => e.withElapsed d
  | .reason text => { e with reason := some text }

/-- An event for the subscriber `name` was not accepted: `why` is `full` or `closed`. -/
def overflow (name why : String) : Event :=
  { kind := .subscriberOverflow
    reason := some ("subscriber=" ++ name ++ " reason=" ++ why)
    subscriber := some name }

/-- The subscriber `name` panicked while it handled an event. -/
def subscriberPanic (name info : String) : Event :=
  { kind := .subscriberPanicked, reason := some info, subscriber := some name }

theorem elapsed_withElapsed_le (e : Event) (d : Span) :
    ∃ n, (e.withElapsed d).elapsed = some n ∧ n ≤ longestElapsed :=
  ⟨_, rfl, Nat.min_le_right _ _⟩

end Event

/-- An event with the number it was given when it was made. -/
structure Stamped where
  seq : Nat
  event : Event
  deriving DecidableEq, Repr, Inhabited

end CompileWatch
