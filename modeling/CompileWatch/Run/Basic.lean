import CompileWatch.Artifact
import CompileWatch.Run.StopError

/-!
# Runs

A run watches the source text. It sleeps for one polling interval, looks at the text, and starts an
attempt when the text is new and not empty. What it does for a new text is cut into steps, since
others may act between any two of them: announce the change, look at the previous attempt, cancel
it and call it off if it is not finished, take a new number, raise the slot's floor, announce the
attempt, and hand it to the workers. A run that is told to stop waits for its attempts, but no
longer than the grace time.
-/
namespace CompileWatch

/-- How far a run has come. -/
inductive Run.Stage where
  /-- Asleep until the tick `wake`. -/
  | waiting (wake : Nat)
  /-- Has read a new text; about to announce it. -/
  | noticed (text : String)
  /-- About to look whether the previous attempt is finished. -/
  | looking (text : String)
  /-- The previous attempt is not finished; about to cancel its token. -/
  | cancelling (text : String) (previous : Generation)
  /-- About to call the previous attempt off. -/
  | callingOff (text : String) (previous : Generation)
  /-- About to announce that the previous attempt is superseded. -/
  | superseding (text : String) (previous : Generation)
  /-- About to take the number of the new attempt. -/
  | numbering (text : String)
  /-- About to raise the floor of the slot. -/
  | raising (text : String) (generation : Generation)
  /-- About to announce the new attempt. -/
  | announcing (text : String) (generation : Generation)
  /-- About to hand the new attempt to the workers. -/
  | launching (text : String) (generation : Generation)
  /-- Told to stop; waiting since the tick `since` for the attempts whose end it has not noted. -/
  | draining (since : Nat)
  /-- The grace time is over with `abandoned` ends not noted; about to cancel the last attempt. -/
  | overdue (abandoned : Nat)
  /-- About to call the last attempt off. -/
  | givingUp (abandoned : Nat)
  /-- About to announce that the grace time was exceeded. -/
  | reportingGrace (abandoned : Nat)
  /-- About to announce the end. -/
  | closing (result : StopResult)
  | ended (result : StopResult)
  /-- The source text could not be read; the run is gone without a word. -/
  | dead (reason : String)

/-- One run, from a start to the end of the stop. -/
structure Run where
  id : Nat
  /-- Has the run been told to stop? -/
  cancelled : Bool := false
  /-- The text of the last attempt it started. -/
  lastText : Option String := none
  /-- The last attempt it started. -/
  previous : Option Generation := none
  stage : Run.Stage

namespace Run

/-- The name under which a run is shown. -/
def name (id : Nat) : String := "run-" ++ toString id

/-- Is the loop of the run over? -/
def isOver (r : Run) : Bool :=
  match r.stage with
  | .ended _ | .dead _ => true
  | _ => false

/-- Does the run wait for its attempts? -/
def isStopping (r : Run) : Bool :=
  match r.stage with
  | .draining _ => true
  | _ => false

/-- What a stop of the run comes to, once that is known. -/
def result? (r : Run) : Option StopResult :=
  match r.stage with
  | .ended result => some result
  | .dead reason => some (.error (.supervisorPanicked reason))
  | _ => none

/-- Does the run start an attempt when it reads this text? -/
def isNews (r : Run) (text : String) : Bool := text != "" && r.lastText != some text

end Run

end CompileWatch
