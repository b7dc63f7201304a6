import CompileWatch.Attempt.Basic
import CompileWatch.Config
import CompileWatch.Retrieval.Board
import CompileWatch.Run.Basic

/-!
# The state of the service

The board with the slot and the retrievals, the source text, the runs and their attempts, and the
calls that stop a run.
-/
namespace CompileWatch

/-- How far a call that stops the service has come. -/
inductive StopCall.Stage where
  /-- Has taken the run; about to tell it to stop. -/
  | taken
  /-- Waiting for the result of the run. -/
  | awaiting
  | returned (result : StopResult) (waited : Nat)

/-- A call that stops the service. -/
structure StopCall where
  /-- The run that the call took; none if there was none to take. -/
  run : Option Nat
  /-- The tick at which the call was made. -/
  begun : Nat
  stage : StopCall.Stage

structure Service (α : Type) where
  config : Config
  board : Board α
  /-- The source text, as it is at present. -/
  text : String := ""
  /-- The generation handed out last. -/
  generation : Generation := 0
  /-- The runs that were started, oldest first. -/
  runs : List Run := []
  /-- The run that a stop would take. -/
  handle : Option Nat := none
  /-- The attempts in the order in which they were handed to the workers. -/
  attempts : List (Attempt α) := []
  stops : List StopCall := []
  /-- The number of the next event. -/
  nextSeq : Nat := 0
  /-- Has the service not been dropped? -/
  owned : Bool := true

namespace Service

variable {α : Type}

/-- A service that has not been started. -/
def ofConfig (config : Config) (sink : MessageSink) (text : String) : Service α :=
  { config, board := { sink, poll := config.effectiveRetrievePoll }, text }

def now (s : Service α) : Nat := s.board.now

def slot (s : Service α) : Slot α := s.board.slot

def putSlot (s : Service α) (slot : Slot α) : Service α :=
  { s with board := { s.board with slot } }

def run? (s : Service α) (id : Nat) : Option Run := s.runs.find? (·.id = id)

def updateRun (s : Service α) (id : Nat) (f : Run → Run) : Service α :=
  { s with runs := s.runs.map fun r => if r.id = id then f r else r }

/-- Moves a run to another stage. -/
def moveRun (s : Service α) (id : Nat) (stage : Run.Stage) : Service α :=
  s.updateRun id ({ · with stage })

def attempt? (s : Service α) (g : Generation) : Option (Attempt α) :=
  s.attempts.find? (·.generation = g)

def updateAttempt (s : Service α) (g : Generation) (f : Attempt α → Attempt α) : Service α :=
  { s with attempts := s.attempts.map fun a => if a.generation = g then f a else a }

/-- Cancels the token of an attempt. -/
def cancelAttempt (s : Service α) (g : Generation) : Service α :=
  s.updateAttempt g ({ · with cancelled := true })

/-- Calls an attempt off: if it has not begun, it never will. -/
def callOff (s : Service α) (g : Generation) : Service α :=
  s.updateAttempt g ({ · with calledOff := true })

/-- Calls off all attempts of a run. -/
def callOffRun (s : Service α) (id : Nat) : Service α :=
  { s with attempts := s.attempts.map fun a =>
      if a.run = id then { a with calledOff := true } else a }

/-- Is the attempt over? An attempt that was never handed to the workers is. -/
def isFinished (s : Service α) (g : Generation) : Bool :=
  match s.attempt? g with
  | some a => a.isFinished
  | none => true

/-- The attempts of a run that it has not taken note of the end of. -/
def outstanding (s : Service α) (id : Nat) : List (Attempt α) :=
  s.attempts.filter fun a => a.run = id && !a.noted

/-- Has an attempt of the run come to its end without the run having taken note? -/
def hasNews (s : Service α) (id : Nat) : Bool :=
  s.attempts.any fun a => a.run = id && a.isUnnoted

/-- The attempts with the ends of the first `n` of a run noted that are over. -/
def noteUpTo (id : Nat) : (n : Nat) → List (Attempt α) → List (Attempt α)
  | 0, list => list
  | _ + 1, [] => []
  | n + 1, a :: rest =>
    if a.run = id && a.isUnnoted then { a with noted := true } :: noteUpTo id n rest
    else a :: noteUpTo id (n + 1) rest

/-- A run takes note of at most `n` of its attempts that are over. -/
def note (s : Service α) (id n : Nat) : Service α :=
  if s.hasNews id then { s with attempts := noteUpTo id n s.attempts } else s

/-- A run takes note of all its attempts that are over. -/
def noteAll (s : Service α) (id : Nat) : Service α := s.note id s.attempts.length

/-- Makes an event and sends it at once. -/
def announce (s : Service α) (e : Event) : Service α × List Stamped :=
  ({ s with nextSeq := s.nextSeq + 1 }, [⟨s.nextSeq, e⟩])

/-- The identity of the present run. -/
def runId? (s : Service α) : Option Nat := s.handle

/-- Is there a present run that has neither ended nor been told to stop? -/
def isRunning (s : Service α) : Bool :=
  match s.handle.bind s.run? with
  | some r => !r.isOver && !r.cancelled
  | none => false

end Service

end CompileWatch
