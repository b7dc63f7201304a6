import CompileWatch.Simulation.Basic

/-!
# Turns

What each task of a simulation does when it has its turn, and how the tasks take turns until nobody
is in line.
-/
namespace CompileWatch

namespace Simulation

/-- The workers that are free take attempts from the queue, at most `fuel` of them. -/
def fillWorkers : (fuel : Nat) → Simulation → Simulation
  | 0, s => s
  | fuel + 1, s =>
    match s.service.attempts.find? (·.isQueued) with
    | none => s
    | some a =>
      if (s.service.attempts.filter (·.isAtWork)).length < s.setup.workers then
        let s := (s.perform (.take a.generation)).wakeStopping a.generation
        fillWorkers fuel (if a.calledOff then s
          else { s with jobs := s.jobs ++ [{ generation := a.generation, source := a.source }] })
      else s

/-- The workers that are free take what attempts there are. -/
def supplyWorkers (s : Simulation) : Simulation := fillWorkers s.service.attempts.length s

/-- What is said of a run that could not read the source text. -/
def unreadableReason : String := "task N panicked with message \"source unavailable\""

/-- A run whose sleep is over looks at the source text. -/
def poll (s : Simulation) (run : Nat) : Simulation :=
  if s.setup.unreadable = some s.service.text then
    s.perform (.pollFails run unreadableReason)
  else s.perform (.poll run)

/-- The result of a stop that has returned, and how long it took. -/
def stopResult? (s : Simulation) (n : Nat) : Option (Nat × StopResult) :=
  (s.service.stops[n]?).bind fun call =>
    match call.stage with
    | .returned result waited => some (waited, result)
    | _ => none

/-- The stops that wait for a run get in line. -/
def callStops (s : Simulation) (run : Nat) : Simulation :=
  let waiting := s.openStops.filter fun n => (s.service.stops[n]?).any (·.run = some run)
  { s with line := s.line.joinAll (waiting.map .stop) }

/-- The steps of a run that has its turn: it leaves its loop if it was told to stop, looks at the
text if it has slept long enough, looks at its attempts if it is stopping, and takes all steps that
follow. At most nine lead from one sleep to the next. -/
def runSteps (s : Simulation) (run : Nat) : Simulation :=
  let s := (s.perform (.leave run)).poll run
  let s := ((s.perform (.drained run)).perform (.graceEnds run)).perform (.glance run)
  (s.performUpTo 9 (.proceed run)).supplyWorkers

/-- A run has its turn. One that is stopping and has more to look at steps aside. -/
def runTurn (s : Simulation) (run : Nat) : Simulation :=
  let s := s.runSteps run
  match s.service.run? run with
  | none => s
  | some r =>
    if r.isOver then s.callStops run
    else if r.isStopping && s.service.hasNews run then s.stepAside (.run run)
    else s.fallAsleep (.run run)

/-- The `i`-th retrieval has its turn: it takes all steps of its own. At most five lead to its next
sleep or its end. -/
def retrievalTurn (s : Simulation) (i : Nat) : Simulation :=
  let s := (s.perform (.wake i)).performUpTo 5 (.ask i)
  if (s.service.board.retrievals[i]?).any (·.isParked) then s.fallAsleep (.retrieval i) else s

/-- The service is dropped as soon as nobody holds it any more. -/
def letGo (s : Simulation) : Simulation :=
  if s.held || s.openStops.any fun n => (s.stopResult? n).isNone then s
  else
    match s.perform? .drop with
    | none => s
    | some dropped =>
      let dropped := { dropped with crew := dropped.crew.perform .stopListening }
      match s.service.handle with
      | none => dropped
      | some run => dropped.wake (.run run)

/-- A hand of the crew has its turn. -/
def handTurn (s : Simulation) (h : Hand) : Simulation :=
  let (crew, ending) := s.crew.turn h
  let s := { s with crew }.lineUp
  if ending = .cutShort then s.stepAside (.hand h) else s

def turn (s : Simulation) : Task → Simulation
  | .hand h => s.handTurn h
  | .run id => s.runTurn id
  | .retrieval i => s.retrievalTurn i
  | .stop n => (s.perform (.stopReturns n)).letGo

/-- At most `fuel` tasks have their turns. -/
def takeTurns : (fuel : Nat) → Simulation → Simulation
  | 0, s => s
  | fuel + 1, s =>
    match s.line.next? with
    | none => s
    | some (t, line) => takeTurns fuel ({ s with line }.turn t)

/-- How many turns there may be in a phase. Where nobody is left in line at the end, any larger
number gives the same phase; where a subscriber panics over the reports of its own panics, no number
is enough. -/
def turns : Nat := 1000000

/-- Everything happens that follows without a compile. -/
def follow (s : Simulation) : Simulation := takeTurns turns s

end Simulation

end CompileWatch
