import CompileWatch.Compiler.Outcome
import CompileWatch.Event.Basic
import CompileWatch.Slot

/-!
# Attempts

An attempt compiles one snapshot of the source text and offers the artifact to the slot once. Its
life is cut into steps wherever others may act in between and somebody can see the difference: it
waits for a worker, compiles, tells of a panic, offers the artifact, wakes the retrievals, and tells
how it ended. An event is first made, which gives it its number, and then sent.

An offer is one step, although the token may still be cancelled between the look at it and the store
that follows. Whoever reads or writes the slot takes the lock that the offer holds from that look to
the store, and the token is all that the lock does not guard. So nobody finds the slot in a state
in between, and a token that is cancelled there might as well have been cancelled after the offer.
-/
namespace CompileWatch

/-- How an attempt ends. -/
inductive Attempt.Conclusion where
  /-- The slot took the artifact; did the compile succeed? -/
  | published (succeeded : Bool)
  /-- The slot refused the artifact of a cancelled attempt. -/
  | cancelled
  /-- The slot refused the artifact because a newer attempt has been started. -/
  | superseded
  /-- The compiler gave up because the attempt was cancelled. -/
  | gaveUp
  deriving DecidableEq, Repr

namespace Attempt.Conclusion

def outcome : Conclusion → PublishOutcome
  | published _ => .published
  | cancelled | gaveUp => .cancelled
  | superseded => .superseded

def kind : Conclusion → EventKind
  | published _ => .attemptPublished
  | _ => .attemptDiscarded

def reason : Conclusion → String
  | published true => "ok"
  | published false => "diagnostics"
  | cancelled => "cancelled"
  | superseded => "superseded"
  | gaveUp => "compiler_cancelled"

/-- How an attempt ends whose offer of an artifact ended in a given way. -/
def ofOffer (succeeded : Bool) : PublishOutcome → Conclusion
  | .published => published succeeded
  | .cancelled => cancelled
  | .superseded => superseded

end Attempt.Conclusion

/-- How far an attempt has come. -/
inductive Attempt.Stage (α : Type) where
  /-- Waiting for a worker. -/
  | queued
  /-- Inside the compiler. -/
  | compiling
  /-- The compiler panicked; the event has not been made. -/
  | panicking (text : String)
  /-- The event of the panic is made but not sent. -/
  | sendingPanic (text : String) (event : Stamped)
  /-- About to offer the artifact to the slot. -/
  | offering (artifact : Artifact α)
  /-- The slot has taken the artifact; the retrievals have not been woken. -/
  | stored (succeeded : Bool)
  /-- It is settled how the attempt ends; the event has not been made. -/
  | concluding (how : Attempt.Conclusion)
  /-- The last event is made but not sent. -/
  | sending (how : Attempt.Conclusion) (event : Stamped)
  /-- Everything is said; the worker is not free yet. -/
  | leaving (how : Attempt.Conclusion)
  /-- Over; without a conclusion if the attempt was called off before it began. -/
  | finished (how : Option Attempt.Conclusion)

/-- An attempt to compile `source`, made by the run `run`. -/
structure Attempt (α : Type) where
  generation : Generation
  run : Nat
  source : String
  /-- Is the attempt's token cancelled? -/
  cancelled : Bool := false
  /-- Is the attempt not to begin any more? Without effect once it has begun. -/
  calledOff : Bool := false
  /-- Has the run taken note that the attempt is over? -/
  noted : Bool := false
  /-- When the compile began, and how long it took, in milliseconds. -/
  began : Nat := 0
  spent : Nat := 0
  stage : Attempt.Stage α := .queued

namespace Attempt

variable {α : Type}

def isFinished (a : Attempt α) : Bool :=
  match a.stage with
  | .finished _ => true
  | _ => false

/-- Is the attempt over without its run having taken note of it? -/
def isUnnoted (a : Attempt α) : Bool := a.isFinished && !a.noted

def isQueued (a : Attempt α) : Bool :=
  match a.stage with
  | .queued => true
  | _ => false

def isCompiling (a : Attempt α) : Bool :=
  match a.stage with
  | .compiling => true
  | _ => false

/-- Does the attempt occupy a worker? -/
def isAtWork (a : Attempt α) : Bool := !a.isQueued && !a.isFinished

/-- An event of this attempt. -/
def event (a : Attempt α) (kind : EventKind) (reason : String) : Event :=
  { kind, generation := some a.generation, source := some a.source, reason := some reason }

/-- The event of a compiler's panic. -/
def panicEvent (a : Attempt α) (text : String) : Event := a.event .compilerPanicked text

/-- The last event of an attempt. -/
def lastEvent (a : Attempt α) (how : Conclusion) : Event :=
  (a.event how.kind how.reason).withElapsed (.ofMillis a.spent)

/-- The artifact of an attempt whose compiler panicked. -/
def panicArtifact (a : Attempt α) (text : String) : Artifact α :=
  .failed a.source a.generation [.error ("compiler panicked: " ++ text)]

/-- Where an attempt stands when its compiler has come back. -/
def stageAfter (a : Attempt α) : Outcome α → Stage α
  | .value v => .offering (.compiled a.source a.generation v)
  | .refused (.diagnostics ds) => .offering (.failed a.source a.generation ds)
  | .refused .canceled => .concluding .gaveUp
  | .panicked payload => .panicking payload.text

/-- One step of an attempt of its own. -/
structure Move (α : Type) where
  attempt : Attempt α
  slot : Slot α
  /-- Was an event made, so that a number is used up? -/
  stamps : Bool := false
  sent : Option Stamped := none
  /-- Are the waiting retrievals woken? -/
  notifies : Bool := false

/-- The next step that an attempt takes of its own accord once the compiler has come back. An event
that is made gets the number `seq`. The look at the token and the store in the slot are one step,
under the one lock that every reader and writer of the slot takes. -/
def next? (seq : Nat) (slot : Slot α) (a : Attempt α) : Option (Move α) :=
  match a.stage with
  | .panicking text =>
    some { attempt := { a with stage := .sendingPanic text ⟨seq, a.panicEvent text⟩ }
           slot, stamps := true }
  | .sendingPanic text event =>
    some { attempt := { a with stage := .offering (a.panicArtifact text) }
           slot, sent := some event }
  | .offering artifact =>
    match slot.publish artifact a.cancelled with
    | (.published, slot) =>
      some { attempt := { a with stage := .stored artifact.succeeded }, slot }
    | (refusal, slot) =>
      some { attempt := { a with stage := .concluding (.ofOffer artifact.succeeded refusal) }
             slot }
  | .stored succeeded =>
    some { attempt := { a with stage := .concluding (.published succeeded) }
           slot, notifies := true }
  | .concluding how =>
    some { attempt := { a with stage := .sending how ⟨seq, a.lastEvent how⟩ }
           slot, stamps := true }
  | .sending how event =>
    some { attempt := { a with stage := .leaving how }, slot, sent := some event }
  | .leaving how => some { attempt := { a with stage := .finished (some how) }, slot }
  | .queued | .compiling | .finished _ => none

/-- At most this many steps lead from the compiler's answer to the end. -/
def longestTail : Nat := 7

end Attempt

end CompileWatch
