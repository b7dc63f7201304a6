import CompileWatch.Simulation.Turn

/-!
# Phases

A simulation goes on in phases. When the clock goes on by one millisecond, or something is asked,
all that follows happens first; then one compile job at a time, oldest first, runs until it is held
or ends, and all that follows from it happens, until no job can run. Those that a compile wakes
count as called from outside.
-/
namespace CompileWatch

namespace Simulation

/-- The retrievals that have settled since the last report, by label. -/
def newlySettled (s : Simulation) : List (String × Nat × RetrievalResult Int64) :=
  let settled := s.openRetrievals.filterMap fun i =>
    (s.service.board.retrievals[i]?).bind fun r =>
      r.result?.map fun (result, waited) => (r.label, waited, result)
  settled.mergeSort fun a b => a.1 ≤ b.1

/-- Is the retrieval neither settled nor given up? -/
def isOpenRetrieval (s : Simulation) (i : Nat) : Bool :=
  match s.service.board.retrievals[i]? with
  | none => false
  | some r => match r.stage with
    | .settled .. | .abandoned => false
    | _ => true

/-- What each subscriber saw, extended by what it saw in a phase. -/
def addSeen (before now : List (String × List Event)) : List (String × List Event) :=
  if before.isEmpty then now.map fun (name, events) => (name, Event.inOrder events)
  else before.zipWith (fun b n => (b.1, b.2 ++ Event.inOrder n.2)) now

/-- The end of a phase: the report is extended by what happened in it. -/
def closePhase (s : Simulation) : Simulation :=
  let (got, position) := s.crew.delivery.bus.receiveAll s.position
  let (seen, crew) := s.crew.takeSeen
  let report : SimReport :=
    { events := s.report.events ++ phaseAccount got
      settled := s.report.settled ++ s.newlySettled
      stopped := s.report.stopped ++ s.openStops.filterMap s.stopResult?
      told := s.report.told
      seen := addSeen s.report.seen seen }
  { s with
    crew, position, report
    openRetrievals := s.openRetrievals.filter s.isOpenRetrieval
    openStops := s.openStops.filter fun n => (s.stopResult? n).isNone }

/-- Is the token of an attempt cancelled? -/
def isCancelled (s : Simulation) (g : Generation) : Bool :=
  match s.service.attempt? g with
  | some a => a.cancelled
  | none => false

def isRunnable (s : Simulation) (job : CompileJob) : Bool :=
  job.isRunnable s.setup.book (s.isCancelled job.generation)

/-- The attempt of a job that has ended comes to its end, at most `n` steps. Those whom a step
notifies wake up at once. -/
def finishAttempt : (n : Nat) → Simulation → Generation → Simulation
  | 0, s, _ => s
  | n + 1, s, g =>
    match s.perform? (.finish g) with
    | none => s
    | some s => finishAttempt n s.wakeDue g

/-- A job runs until it is held or ends; the attempt of an ended job comes to its end, and the free
worker takes the next one. All whom this wakes are called from outside. -/
def runJob (s : Simulation) (job : CompileJob) : Simulation :=
  let go := job.go s.setup.book (s.isCancelled job.generation)
  let s := { s with parseCalls := s.parseCalls + go.parseCalls,
                    compileCalls := s.compileCalls + go.compileCalls }
  match go.progress with
  | .held phase =>
    { s with jobs := s.jobs.map fun j =>
        if j.generation = job.generation then { j with heldIn := some phase } else j }
  | .ended outcome =>
    let s := { s with jobs := s.jobs.filter (·.generation ≠ job.generation) }
    let s := if go.cancelsItself then s.perform (.cancelItself job.generation) else s
    let s := finishAttempt Attempt.longestTail (s.perform (.compiled job.generation outcome))
      job.generation
    let s := (s.wakeStopping job.generation).supplyWorkers
    { s with line := s.line.callAll }

/-- One job after the other runs, with all that follows from it, at most `fuel` times. -/
def runJobs : (fuel : Nat) → Simulation → Simulation
  | 0, s => s
  | fuel + 1, s =>
    match s.jobs.find? s.isRunnable with
    | none => s
    | some job => runJobs fuel (s.runJob job).follow.closePhase

/-- Everything happens that can happen without the clock going on. Every attempt that is not over
needs at most two goes. -/
def settle (s : Simulation) : Simulation :=
  let s := s.follow.closePhase
  runJobs (2 * (s.service.attempts.filter (!·.isFinished)).length) s

/-- The clock goes on by one millisecond. -/
def tick (s : Simulation) : Simulation := (s.perform .tick).wakeDue.settle

def ticks (s : Simulation) (n : Nat) : Simulation := Nat.repeat tick n s

/-- The clock goes on, at most `fuel` milliseconds, until something is done. -/
def tickUntil (done : Simulation → Bool) : (fuel : Nat) → Simulation → Simulation
  | 0, s => s
  | fuel + 1, s => if done s then s else tickUntil done fuel s.tick

end Simulation

end CompileWatch
