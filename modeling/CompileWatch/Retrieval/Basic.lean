import CompileWatch.Event.Basic
import CompileWatch.Retrieval.Failure
import CompileWatch.Slot

/-!
# Retrievals

A retrieval waits a bounded time for the artifact of exactly one text. In turn it arms its wake-up,
looks at the slot, looks at its deadline, and parks until something is published or its timer
fires. Each look is a step of its own, so that others may act in between.
-/
namespace CompileWatch

/-- What a retrieval comes to. -/
abbrev RetrievalResult (α : Type) := Except RetrievalFailure (Artifact α)

/-- How far a retrieval has come. -/
inductive Retrieval.Stage (α : Type) where
  /-- About to arm the wake-up. -/
  | arming
  /-- Armed; about to look at the slot. -/
  | checking
  /-- Found nothing; about to look at the deadline. -/
  | testing
  /-- Asleep until the tick `wake`, or until something is published. -/
  | parked (wake : Nat)
  /-- Found the artifact after `waited` milliseconds; the sink has not been told. -/
  | matched (artifact : Artifact α) (waited : Nat)
  /-- Too late after `waited` milliseconds; the sink has not been told. -/
  | overdue (waited : Nat)
  /-- The sink knows; the event has not been published. -/
  | reporting (result : RetrievalResult α) (waited : Nat) (event : Event)
  | settled (result : RetrievalResult α) (waited : Nat)
  /-- Given up by the caller. -/
  | abandoned

/-- One call for the artifact of `code`, begun at the tick `begun`. -/
structure Retrieval (α : Type) where
  /-- The caller's name for the call. -/
  label : String
  code : String
  timeout : Span
  begun : Nat
  /-- Has something been published since the wake-up was armed? -/
  notified : Bool := false
  stage : Retrieval.Stage α := .arming

namespace Retrieval

variable {α : Type}

/-- The latest instant that the clock can represent. -/
def lastInstant : Span := .ofSecs (Nat.pow 2 63 - 1) 999999999

/-- The first tick at or after the end of the timeout; none if the clock cannot represent that
instant, and then there is no deadline. -/
def deadline? (begun : Nat) (timeout : Span) : Option Nat :=
  if (Span.ofMillis begun).nanos + timeout.nanos ≤ lastInstant.nanos then
    some (begun + timeout.ticks)
  else none

/-- Would a notification wake this call? -/
def isArmed (r : Retrieval α) : Bool :=
  match r.stage with
  | .checking | .testing | .parked _ => true
  | _ => false

/-- Notes that something was published. -/
def notify (r : Retrieval α) : Retrieval α := if r.isArmed then { r with notified := true } else r

/-- Can a parked call go on? -/
def canWake (now : Nat) (r : Retrieval α) : Bool :=
  match r.stage with
  | .parked wake => r.notified || wake ≤ now
  | _ => false

def isParked (r : Retrieval α) : Bool :=
  match r.stage with
  | .parked _ => true
  | _ => false

/-- The result of a call that has settled, and how long it waited. -/
def result? (r : Retrieval α) : Option (RetrievalResult α × Nat) :=
  match r.stage with
  | .settled result waited => some (result, waited)
  | _ => none

/-- The result that an artifact of the wanted text gives. -/
def resultOf (a : Artifact α) : RetrievalResult α :=
  match a.content with
  | .compiled _ => .ok a
  | .failed _ rest => .error (.diagnostics (rest.length + 1))

/-- The event of a call that found an artifact. -/
def foundEvent (a : Artifact α) (waited : Nat) : Event :=
  let found : Event := { kind := .retrieveMatched, source := some a.source,
                         generation := some a.generation }
  match a.content with
  | .compiled _ => found.withElapsed (.ofMillis waited)
  | .failed first _ =>
    { found with kind := .retrieveFailed, reason := some first.message }.withElapsed
      (.ofMillis waited)

/-- The event of a call that came too late. -/
def timeoutEvent (code : String) (waited : Nat) : Event :=
  { kind := .retrieveTimedOut, source := some code : Event }.withElapsed (.ofMillis waited)

/-- One step of a call of its own: what it becomes, what it tells the sink, and the event that it
publishes. -/
structure Move (α : Type) where
  retrieval : Retrieval α
  told : Option (List Diagnostic) := none
  announced : Option Event := none

/-- The next step that a call takes of its own accord, if it has one. -/
def next? (now : Nat) (slot : Slot α) (poll : Span) (r : Retrieval α) : Option (Move α) :=
  match r.stage with
  | .arming => some { retrieval := { r with stage := .checking, notified := false } }
  | .checking =>
    match slot.find? r.code with
    | some a => some { retrieval := { r with stage := .matched a (now - r.begun) } }
    | none => some { retrieval := { r with stage := .testing } }
  | .testing =>
    match deadline? r.begun r.timeout with
    | none => some { retrieval := { r with stage := .parked (now + poll.ticks) } }
    | some deadline =>
      if deadline ≤ now then some { retrieval := { r with stage := .overdue (now - r.begun) } }
      else some { retrieval := { r with stage := .parked (min (now + poll.ticks) deadline) } }
  | .matched a waited =>
    some { retrieval := { r with stage := .reporting (resultOf a) waited (foundEvent a waited) }
           told := if a.diagnostics.isEmpty then none else some a.diagnostics }
  | .overdue waited =>
    let failure := RetrievalFailure.timedOut r.code r.timeout
    some { retrieval :=
             { r with stage := .reporting (.error failure) waited (timeoutEvent r.code waited) }
           told := some [.error failure.message] }
  | .reporting result waited event =>
    some { retrieval := { r with stage := .settled result waited }, announced := some event }
  | .parked _ | .settled .. | .abandoned => none

end Retrieval

end CompileWatch
