import CompileWatch.Line
import CompileWatch.Service.Basic

/-!
# The steps of the service

Everything that can happen in the service is an action, and an action either can happen in a state
or it cannot. A history is a list of actions in any order in which each can happen in its turn, so
that it covers all ways in which the callers, the runs, the attempts and the retrievals can get
into each other's way. The events that are sent come out in the order in which they reach the bus.
-/
namespace CompileWatch

/-- What can happen next. A run, an attempt or a retrieval has at most one next step of its own;
the other actions are choices of the world around them. -/
inductive Action (α : Type) where
  /-- The clock goes on by one millisecond. -/
  | tick
  /-- The source text is set. -/
  | edit (text : String)
  | start
  /-- A stop takes the present run. -/
  | stop
  /-- The `n`-th stop tells the run that it took to stop. -/
  | tellRun (n : Nat)
  /-- The `n`-th stop returns. -/
  | stopReturns (n : Nat)
  /-- The service is dropped. -/
  | drop
  /-- The sleep of a run is over, and it looks at the source text. -/
  | poll (run : Nat)
  /-- The sleep of a run is over, and the source text cannot be read. -/
  | pollFails (run : Nat) (reason : String)
  /-- A run sees that it is to stop. -/
  | leave (run : Nat)
  /-- A stopping run sees that its attempts are finished. -/
  | drained (run : Nat)
  /-- The grace time of a stopping run is over. -/
  | graceEnds (run : Nat)
  /-- A stopping run sees that some of its attempts are finished, and goes on waiting. -/
  | glance (run : Nat)
  /-- A run takes its next step. -/
  | proceed (run : Nat)
  /-- A worker takes an attempt: it begins, unless it was called off. -/
  | take (attempt : Generation)
  /-- The compiler cancels the token of its own attempt. -/
  | cancelItself (attempt : Generation)
  /-- The compiler of an attempt comes back. -/
  | compiled (attempt : Generation) (outcome : Outcome α)
  /-- An attempt takes its next step. -/
  | finish (attempt : Generation)
  /-- A retrieval begins. -/
  | retrieve (label code : String) (timeout : Span)
  /-- The `i`-th retrieval takes its next step. -/
  | ask (i : Nat)
  /-- The `i`-th retrieval wakes up. -/
  | wake (i : Nat)
  /-- The `i`-th retrieval is given up by its caller. -/
  | abandon (i : Nat)

namespace Service

variable {α : Type}

/-- The state after an action, and the events it sends. -/
abbrev Result (α : Type) := Option (Service α × List Stamped)

/-- An event of a run. -/
def runEvent (kind : EventKind) (run : Nat) : Event := { kind, run := some run }

/-- The tick at which a run that goes to sleep now wakes up. -/
def nextPoll (s : Service α) : Nat := s.now + s.config.effectivePollInterval.ticks

/-- Starts a run, unless one is running. -/
def start (s : Service α) : Service α × List Stamped :=
  if s.isRunning then (s, [])
  else
    let id := s.runs.length + 1
    let run : Run := { id, stage := .waiting s.nextPoll }
    let started : Service α := { s with runs := s.runs ++ [run], handle := some id }
    started.announce (runEvent .engineStarted id)

/-- A stop takes the present run; without one it returns at once. -/
def stop (s : Service α) : Service α :=
  match s.handle with
  | none => { s with stops := s.stops ++ [⟨none, s.now, .returned (.ok ()) 0⟩] }
  | some id => { s with handle := none, stops := s.stops ++ [⟨some id, s.now, .taken⟩] }

/-- The `n`-th stop moves on. -/
def moveStop (s : Service α) (n : Nat) (call : StopCall) (stage : StopCall.Stage) : Service α :=
  { s with stops := s.stops.set n { call with stage } }

def tellRun? (s : Service α) (n : Nat) : Option (Service α) :=
  match s.stops[n]? with
  | some call =>
    match call.stage, call.run with
    | .taken, some id =>
      some ((s.updateRun id ({ · with cancelled := true })).moveStop n call .awaiting)
    | _, _ => none
  | none => none

def stopReturns? (s : Service α) (n : Nat) : Option (Service α) :=
  match s.stops[n]? with
  | some call =>
    match call.stage, (call.run.bind s.run?).bind (·.result?) with
    | .awaiting, some result => some (s.moveStop n call (.returned result (s.now - call.begun)))
    | _, _ => none
  | none => none

/-- Drops the service: the present run is told to stop, and nobody gets its result. -/
def drop (s : Service α) : Service α :=
  let s := { s with owned := false }
  match s.handle with
  | none => s
  | some id => { s.updateRun id ({ · with cancelled := true }) with handle := none }

/-- A run that has slept long enough looks at the text. Before it goes to sleep again, it takes note
of all its attempts that are over. -/
def poll? (s : Service α) (r : Run) : Option (Service α) :=
  match r.stage with
  | .waiting wake =>
    if wake ≤ s.now then
      some (if r.isNews s.text then s.moveRun r.id (.noticed s.text)
        else (s.noteAll r.id).moveRun r.id (.waiting s.nextPoll))
    else none
  | _ => none

/-- A run that has slept long enough finds that the text cannot be read. It is gone, and those of
its attempts that have not begun are called off. -/
def pollFails? (s : Service α) (r : Run) (reason : String) : Option (Service α) :=
  match r.stage with
  | .waiting wake =>
    if wake ≤ s.now then some ((s.moveRun r.id (.dead reason)).callOffRun r.id) else none
  | _ => none

/-- A sleeping run that was told to stop begins to wait for its attempts. -/
def leave? (s : Service α) (r : Run) : Option (Service α) :=
  match r.stage with
  | .waiting _ => if r.cancelled then some (s.moveRun r.id (.draining s.now)) else none
  | _ => none

/-- A stopping run looks at its attempts, and comes to the end if it has now taken note of them all.
One look is enough for as many ends as one turn has room for. -/
def drained? (s : Service α) (r : Run) : Option (Service α) :=
  match r.stage with
  | .draining _ =>
    let s := s.note r.id Line.turnLength
    if (s.outstanding r.id).isEmpty then some (s.moveRun r.id (.closing (.ok ()))) else none
  | _ => none

/-- A stopping run whose grace time is over gives up if one look at its attempts is not enough. -/
def graceEnds? (s : Service α) (r : Run) : Option (Service α) :=
  match r.stage with
  | .draining since =>
    let s := s.note r.id Line.turnLength
    let rest := s.outstanding r.id
    if since + s.config.grace.ticks ≤ s.now && !rest.isEmpty then
      some (s.moveRun r.id (.overdue rest.length))
    else none
  | _ => none

/-- A stopping run looks at its attempts and takes note of ends that it did not know. -/
def glance? (s : Service α) (r : Run) : Option (Service α) :=
  match r.stage with
  | .draining _ => if s.hasNews r.id then some (s.note r.id Line.turnLength) else none
  | _ => none

/-- The next step that a run takes of its own accord, if it has one. -/
def proceed? (s : Service α) (r : Run) : Result α :=
  match r.stage with
  | .noticed text =>
    some ((s.moveRun r.id (.looking text)).announce
      { runEvent .sourceChanged r.id with source := some text })
  | .looking text =>
    let forgotten := s.updateRun r.id ({ · with previous := none })
    match r.previous with
    | none => some (forgotten.moveRun r.id (.numbering text), [])
    | some g =>
      if s.isFinished g then some (forgotten.moveRun r.id (.numbering text), [])
      else some (forgotten.moveRun r.id (.cancelling text g), [])
  | .cancelling text g => some ((s.cancelAttempt g).moveRun r.id (.callingOff text g), [])
  | .callingOff text g => some ((s.callOff g).moveRun r.id (.superseding text g), [])
  | .superseding text g =>
    some ((s.moveRun r.id (.numbering text)).announce
      { runEvent .attemptSuperseded r.id with generation := some g })
  | .numbering text =>
    let g := s.generation + 1
    some ({ s with generation := g }.moveRun r.id (.raising text g), [])
  | .raising text g =>
    some ((s.putSlot (s.slot.advance g)).moveRun r.id (.announcing text g), [])
  | .announcing text g =>
    some ((s.moveRun r.id (.launching text g)).announce
      { runEvent .attemptStarting r.id with generation := some g, source := some text })
  | .launching text g =>
    let attempt : Attempt α := { generation := g, run := r.id, source := text }
    let launched := { s with attempts := s.attempts ++ [attempt] }
    some ((launched.noteAll r.id).updateRun r.id ({ · with
      previous := some g, lastText := some text, stage := .waiting s.nextPoll }), [])
  | .overdue n =>
    let s := match r.previous with
      | none => s
      | some g => s.cancelAttempt g
    some (s.moveRun r.id (.givingUp n), [])
  | .givingUp n =>
    let s := match r.previous with
      | none => s
      | some g => s.callOff g
    some ((s.updateRun r.id ({ · with previous := none })).moveRun r.id (.reportingGrace n), [])
  | .reportingGrace n =>
    let event : Event := { runEvent .graceExceeded r.id with reason := some (toString n) }
    some ((s.moveRun r.id (.closing (.error (.graceExceeded s.config.grace n)))).announce
      (event.withElapsed s.config.grace))
  | .closing result =>
    some ((s.moveRun r.id (.ended result)).announce (runEvent .engineStopped r.id))
  | .waiting _ | .draining _ | .ended _ | .dead _ => none

/-- A worker takes a waiting attempt. -/
def take? (s : Service α) (a : Attempt α) : Option (Service α) :=
  match a.stage with
  | .queued =>
    some (s.updateAttempt a.generation fun a =>
      if a.calledOff then { a with stage := .finished none }
      else { a with stage := .compiling, began := s.now })
  | _ => none

def cancelItself? (s : Service α) (a : Attempt α) : Option (Service α) :=
  if a.isCompiling then some (s.cancelAttempt a.generation) else none

def compiled? (s : Service α) (a : Attempt α) (outcome : Outcome α) : Option (Service α) :=
  match a.stage with
  | .compiling =>
    some (s.updateAttempt a.generation fun a =>
      { a with stage := a.stageAfter outcome, spent := s.now - a.began })
  | _ => none

/-- The next step that an attempt takes of its own accord, if it has one. -/
def finish? (s : Service α) (a : Attempt α) : Result α :=
  (a.next? s.nextSeq s.slot).map fun move =>
    let s := (s.putSlot move.slot).updateAttempt a.generation fun _ => move.attempt
    let s := if move.notifies then { s with board := s.board.notify } else s
    (if move.stamps then { s with nextSeq := s.nextSeq + 1 } else s, move.sent.toList)

/-- The `i`-th retrieval takes its next step. -/
def ask? (s : Service α) (i : Nat) : Result α :=
  (s.board.ask? i).map fun (board, event) =>
    match event with
    | none => ({ s with board }, [])
    | some e => { s with board }.announce e

/-- A step that sends no event. -/
def silent : Option (Service α) → Result α := Option.map fun s => (s, [])

/-- Performs an action, if it can happen now. -/
def step? (s : Service α) : Action α → Result α
  | .tick => some ({ s with board := s.board.tick }, [])
  | .edit text => some ({ s with text }, [])
  | .start => if s.owned then some s.start else none
  | .stop => if s.owned then some (s.stop, []) else none
  | .tellRun n => silent (s.tellRun? n)
  | .stopReturns n => silent (s.stopReturns? n)
  | .drop => if s.owned then some (s.drop, []) else none
  | .poll id => silent ((s.run? id).bind s.poll?)
  | .pollFails id reason => silent ((s.run? id).bind (s.pollFails? · reason))
  | .leave id => silent ((s.run? id).bind s.leave?)
  | .drained id => silent ((s.run? id).bind s.drained?)
  | .graceEnds id => silent ((s.run? id).bind s.graceEnds?)
  | .glance id => silent ((s.run? id).bind s.glance?)
  | .proceed id => (s.run? id).bind s.proceed?
  | .take g => silent ((s.attempt? g).bind s.take?)
  | .cancelItself g => silent ((s.attempt? g).bind s.cancelItself?)
  | .compiled g outcome => silent ((s.attempt? g).bind (s.compiled? · outcome))
  | .finish g => (s.attempt? g).bind s.finish?
  | .retrieve label code timeout =>
    some ({ s with board := s.board.call label code timeout }, [])
  | .ask i => s.ask? i
  | .wake i => silent ((s.board.wake? i).map fun board => { s with board })
  | .abandon i => silent ((s.board.abandon? i).map fun board => { s with board })

/-- The state after a history, with all events in the order in which they were sent; none if some
action could not happen in its turn. -/
def steps? : Service α → List (Action α) → Result α
  | s, [] => some (s, [])
  | s, a :: rest =>
    match s.step? a with
    | none => none
    | some (next, sent) => (next.steps? rest).map fun (last, more) => (last, sent ++ more)

end Service

end CompileWatch
