import CompileWatch.Bus.Switchboard
import CompileWatch.Simulation.Phase

/-!
# Requests to a simulation

What can be asked of a simulated service, and how it answers. After every request all that can
happen without the clock going on happens, and is reported.
-/
namespace CompileWatch

inductive SimRequest where
  | set (text : String)
  | start
  /-- Begins a stop and lets the clock go on until all stops have returned. -/
  | stop
  | beginStop
  /-- Lets the oldest held compile of a text go on. -/
  | release (source : String)
  | calls
  | current
  | find (code : String)
  | config
  | subscriberCount
  | subscribe (name : String)
  | receive (name : String)
  | drop
  | tick (n : Nat)
  | beginRetrieval (label code : String) (timeout : Option Span)
  /-- Begins a retrieval and lets the clock go on until it has settled. -/
  | retrieve (code : String) (timeout : Option Span)
  | abort (label : String)
  | timeout
  /-- Raises the floor of the slot from outside. -/
  | advance (g : Generation)
  /-- Offers an artifact to the slot from outside. -/
  | publish (artifact : Artifact Int64) (cancelled : Bool)

inductive SimReply where
  | done
  /-- The service has been dropped. -/
  | dropped
  | run (id : Nat)
  | flag (b : Bool)
  | calls (parse compile : Nat)
  | artifact (a : Option (Artifact Int64))
  | config (c : Config)
  | count (n : Nat)
  | received (items : List (Reception Event))
  | span (d : Span)
  | outcome (o : PublishOutcome)

/-- A view of the service after a request. -/
structure SimState where
  running : Bool
  run : Option Nat
  floor : Generation
  current : Option Generation

namespace SimRequest

/-- Does the request need the service itself, and not only what it has left behind? -/
def needsService : SimRequest → Bool
  | start | stop | beginStop | drop => true
  | current | find _ | config | subscriberCount | subscribe _ => true
  | _ => false

end SimRequest

namespace Simulation

/-- The label of a retrieval that a request waits for. -/
def waitingLabel : String := "-"

/-- A start; a run that is new has its first turn soon. -/
def start (s : Simulation) : Simulation :=
  let started := s.perform .start
  if s.service.runs.length < started.service.runs.length then
    started.getInLine (.run started.service.runs.length)
  else started

/-- The run that the `n`-th stop waits for wakes up; if it is over, the stop itself gets in line. -/
def callForStop (s : Simulation) (n : Nat) : Simulation :=
  match (s.service.stops[n]?).bind (·.run) with
  | none => s
  | some run =>
    if (s.service.run? run).any (·.isOver) then s.getInLine (.stop n) else s.wake (.run run)

/-- A stop takes the present run and tells it to stop. -/
def beginStop (s : Simulation) : Simulation :=
  let n := s.service.stops.length
  let told := (s.perform .stop).perform (.tellRun n)
  { told with openStops := s.openStops ++ [n] }.callForStop n

def beginRetrieval (s : Simulation) (label code : String) (timeout : Option Span) : Simulation :=
  let i := s.service.board.retrievals.size
  let timeout := timeout.getD s.setup.config.retrieveTimeout
  let s := s.perform (.retrieve label code timeout)
  { s with openRetrievals := s.openRetrievals ++ [i] }.getInLine (.retrieval i)

/-- The milliseconds until the grace time of the last stopping run is over. -/
def longestDrain (s : Simulation) : Nat :=
  s.service.runs.foldl (fun n r =>
    match r.stage with
    | .draining since => max n (since + s.setup.config.grace.ticks - s.service.now)
    | _ => n) 0

/-- The milliseconds until a retrieval that begins now is over; without a deadline, as many as the
longest span has. -/
def longestWait (s : Simulation) (timeout : Span) : Nat :=
  match Retrieval.deadline? s.service.now timeout with
  | some deadline => deadline - s.service.now
  | none => Span.longest.ticks

def release (s : Simulation) (source : String) : Bool × Simulation :=
  match s.jobs.find? fun j => j.source = source && j.heldIn.isSome && !j.released with
  | none => (false, s)
  | some job =>
    (true, { s with jobs := s.jobs.map fun j =>
      if j.generation = job.generation then { j with released := true } else j })

def abort (s : Simulation) (label : String) : Nat × Simulation :=
  let given := s.openRetrievals.filter fun i =>
    match s.service.board.retrievals[i]? with
    | some r => r.label = label
    | none => false
  let s := given.foldl (fun s i => s.perform (.abandon i)) s
  (given.length, { s with
    openRetrievals := s.openRetrievals.filter (!given.contains ·)
    sleepers := .ofList (s.sleepers.toList.filter fun t => !(given.map .retrieval).contains t) })

/-- The bus with its named receivers. -/
def switchboard (s : Simulation) : Switchboard Event :=
  { bus := s.crew.delivery.bus, receivers := s.receivers }

/-- Does what a request asks for, up to the point from which all follows by itself. -/
def act (s : Simulation) : SimRequest → SimReply × Simulation
  | .set text => (.done, s.perform (.edit text))
  | .start =>
    let s := s.start
    (.run (s.service.runId?.getD 0), s)
  | .stop | .beginStop => (.done, s.beginStop)
  | .release source =>
    let (found, s) := s.release source
    (.flag found, s)
  | .calls => (.done, s)
  | .current => (.artifact s.service.slot.latest, s)
  | .find code => (.artifact (s.service.slot.find? code), s)
  | .config => (.config s.setup.config, s)
  | .subscriberCount => (.count s.crew.members.length, s)
  | .subscribe name => (.done, { s with receivers := (s.switchboard.subscribe name).receivers })
  | .receive name =>
    let (items, _, next) := s.switchboard.drain name
    (.received items, { s with receivers := next.receivers })
  | .drop => (.done, { s with held := false }.letGo)
  | .tick n => (.done, s.ticks n)
  | .beginRetrieval label code timeout => (.done, s.beginRetrieval label code timeout)
  | .retrieve code timeout => (.done, s.beginRetrieval waitingLabel code timeout)
  | .abort label =>
    let (n, s) := s.abort label
    (.count n, s)
  | .timeout => (.span s.setup.config.retrieveTimeout, s)
  | .advance g => (.done, { s with service := s.service.putSlot (s.service.slot.advance g) })
  | .publish artifact cancelled =>
    let (outcome, board) := s.service.board.publish artifact cancelled
    (.outcome outcome, { s with service := { s.service with board } }.wakeDue)

/-- Can the request not be met any more because the asker has let go of the service? -/
def refuses (s : Simulation) (request : SimRequest) : Bool := request.needsService && !s.held

/-- Does what a request asks for, if it can still be met. -/
def respond (s : Simulation) (request : SimRequest) : SimReply × Simulation :=
  if s.refuses request then (.dropped, s) else s.act request

/-- Lets the clock go on for the requests that wait for something. The state `before` is the one in
which the request was made. -/
def waitOut (before s : Simulation) (request : SimRequest) : Simulation :=
  if before.refuses request then s
  else match request with
    | .stop => tickUntil (·.openStops.isEmpty) s.longestDrain s
    | .retrieve _ timeout =>
      let i := before.service.board.retrievals.size
      tickUntil (fun s => !s.openRetrievals.contains i)
        (before.longestWait (timeout.getD s.setup.config.retrieveTimeout)) s
    | _ => s

/-- A simulation with nothing to report. -/
def clearReport (s : Simulation) : Simulation := { s with report := {} }

/-- Completes the report of what has happened since the sink had been called `told` times. What
subscribers see once the asker has let go of the service is not reported. -/
def completeReport (told : Nat) (s : Simulation) : Simulation :=
  { s with report := { s.report with
      told := s.service.board.sink.calls.drop told
      seen := if s.held then s.report.seen else [] } }

/-- Answers a request; the report in the new state says what has happened meanwhile. -/
def answer (s : Simulation) (request : SimRequest) : SimReply × Simulation :=
  let before := s.clearReport
  let (reply, acted) := before.respond request
  let last := waitOut before acted.settle request
  let reply := match request with
    | .calls => .calls last.parseCalls last.compileCalls
    | _ => reply
  (reply, completeReport s.service.board.sink.calls.length last)

/-- How the service stands; none once the asker has let go of it. -/
def state? (s : Simulation) : Option SimState :=
  if s.held then
    some { running := s.service.isRunning
           run := s.service.runId?
           floor := s.service.slot.floor
           current := s.service.slot.latest.map (·.generation) }
  else none

end Simulation

end CompileWatch
