import CompileWatch.Compiler.Job
import CompileWatch.Service.Step
import CompileWatch.Simulation.Account
import CompileWatch.Subscriber.Crew

/-!
# Simulations

A service on a virtual millisecond clock, with a scripted compiler and a crew of subscribers. A
simulation is one particular history of the service. What happens in it is done by tasks: the runs,
the retrievals, the stops and the hands of the crew. They take turns in one line. Runs and
retrievals sleep in between; those that are woken together get in line in the order in which they
fell asleep.
-/
namespace CompileWatch

/-- What has happened since the last report. -/
structure SimReport where
  events : List AccountEntry := []
  /-- The retrievals that have settled: their labels, how long they waited, their results. -/
  settled : List (String × Nat × RetrievalResult Int64) := []
  /-- The stops that have returned: how long they took, their results. -/
  stopped : List (Nat × StopResult) := []
  /-- What the sink was given, call by call. -/
  told : List (List Diagnostic) := []
  /-- What each subscriber saw. -/
  seen : List (String × List Event) := []

/-- The fixed terms of a simulation. -/
structure SimSetup where
  config : Config := {}
  book : ScriptBook := {}
  /-- Does the sink take batches? None if there is no sink to look at. -/
  sinkTakesBatches : Option Bool := some true
  text : String := ""
  /-- How many compiles can be at work at once. -/
  workers : Nat := 16
  /-- The source text at which reading it fails. -/
  unreadable : Option String := none
  subscribers : List (String × Nat × Habit) := []

/-- Refuses to do without workers. -/
def SimSetup.checkWorkers (workers : Nat) : Except LimitError Unit :=
  if workers = 0 then .error .noWorkers else .ok ()

/-- Whoever takes turns in a simulation. -/
inductive Task where
  | hand (h : Hand)
  | run (id : Nat)
  /-- The `i`-th retrieval. -/
  | retrieval (i : Nat)
  /-- The `n`-th stop. -/
  | stop (n : Nat)
  deriving DecidableEq, Repr

structure Simulation where
  setup : SimSetup
  service : Service Int64
  /-- The bus and the subscribers. -/
  crew : Crew
  /-- The tasks that will have a turn. -/
  line : Line Task := {}
  /-- The runs and the retrievals that sleep, in the order in which they fell asleep. -/
  sleepers : Queue Task := {}
  /-- Has nobody let go of the service yet? A stop that has not returned goes on holding it. -/
  held : Bool := true
  /-- The compiles at work, in the order in which they began. -/
  jobs : List CompileJob := []
  parseCalls : Nat := 0
  compileCalls : Nat := 0
  /-- The position on the bus of the receiver that the reports are made from. -/
  position : Nat := 0
  /-- Receivers by name. -/
  receivers : List (String × Nat) := []
  /-- The retrievals and the stops whose end has not been reported. -/
  openRetrievals : List Nat := []
  openStops : List Nat := []
  report : SimReport := {}

namespace Simulation

/-- A simulation in which nothing has happened. -/
def ofSetup (setup : SimSetup) : Simulation where
  setup
  service := .ofConfig setup.config { takesBatches := setup.sinkTakesBatches.getD true } setup.text
  crew := .ofHabits setup.config.busCapacity setup.subscribers

/-- A simulation in which nothing has happened, if there is a worker and the crew can be had. -/
def ofSetup? (setup : SimSetup) : Except LimitError Simulation := do
  SimSetup.checkWorkers setup.workers
  let crew ← Crew.ofHabits? setup.config.busCapacity setup.subscribers
  return { ofSetup setup with crew }

/-- A simulation that is not refused starts with nothing having happened. -/
theorem eq_ofSetup_of_ofSetup? {setup : SimSetup} {s : Simulation}
    (h : ofSetup? setup = .ok s) : s = ofSetup setup := by
  simp only [ofSetup?, bind, Except.bind, pure, Except.pure] at h
  split at h
  · cases h
  · split at h
    · cases h
    · next crew hc =>
      rw [Crew.eq_ofHabits_of_ofHabits? hc] at h
      exact (Except.ok.inj h).symm

/-- The hands of the crew that were woken get in line. -/
def lineUp (s : Simulation) : Simulation :=
  let (hands, crew) := s.crew.takeWoken
  { s with crew, line := s.line.joinAll (hands.map .hand) }

/-- Performs an action of the service, if it can happen now, and puts its events on the bus. -/
def perform? (s : Simulation) (a : Action Int64) : Option Simulation :=
  (s.service.step? a).map fun (service, sent) =>
    let crew := (sent.map Stamped.event).foldl Crew.publish s.crew
    { s with service, crew }.lineUp

/-- Performs an action of the service; one that cannot happen now changes nothing. -/
def perform (s : Simulation) (a : Action Int64) : Simulation := (s.perform? a).getD s

/-- Performs an action as often as it can happen, at most `n` times. -/
def performUpTo : (n : Nat) → Simulation → Action Int64 → Simulation
  | 0, s, _ => s
  | n + 1, s, a =>
    match s.perform? a with
    | none => s
    | some s => performUpTo n s a

def getInLine (s : Simulation) (t : Task) : Simulation := { s with line := s.line.join t }

def stepAside (s : Simulation) (t : Task) : Simulation := { s with line := s.line.stepAside t }

def fallAsleep (s : Simulation) (t : Task) : Simulation :=
  { s with sleepers := s.sleepers.enqueue t }

/-- Those of the sleepers that fulfil a condition wake up and get in line. -/
def wakeAll (s : Simulation) (p : Task → Bool) : Simulation :=
  let (woken, rest) := s.sleepers.toList.partition p
  if woken.isEmpty then s
  else { s with sleepers := .ofList rest, line := s.line.joinAll woken }

/-- A task wakes up, if it sleeps. -/
def wake (s : Simulation) (t : Task) : Simulation := s.wakeAll (· = t)

/-- How far a run has come. -/
def runStage? (s : Simulation) (run : Nat) : Option Run.Stage :=
  (s.service.run? run).map Run.stage

/-- Has a sleeper slept long enough, or was it notified? -/
def isDue (s : Simulation) : Task → Bool
  | .retrieval i =>
    match s.service.board.retrievals[i]? with
    | some r => r.canWake s.service.now
    | none => false
  | .run id =>
    match s.runStage? id with
    | some (.waiting wake) => wake ≤ s.service.now
    | some (.draining since) => since + s.setup.config.grace.ticks ≤ s.service.now
    | _ => false
  | .hand _ | .stop _ => false

/-- All sleepers that have slept long enough or were notified wake up. -/
def wakeDue (s : Simulation) : Simulation := s.wakeAll s.isDue

/-- When an attempt is over, its run wakes up if it is stopping. -/
def wakeStopping (s : Simulation) (g : Generation) : Simulation :=
  match s.service.attempt? g with
  | none => s
  | some a =>
    match s.runStage? a.run with
    | some (.draining _) => if a.isFinished then s.wake (.run a.run) else s
    | _ => s

end Simulation

end CompileWatch
