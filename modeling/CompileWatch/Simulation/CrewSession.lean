import CompileWatch.Simulation.Account
import CompileWatch.Subscriber.Crew

/-!
# Sessions with a crew

A crew that is given events directly, and a receiver that reads from its bus what the crew itself
has to report.
-/
namespace CompileWatch

/-- What can be asked of a crew. -/
inductive CrewRequest where
  | emit (event : Event) (times : Nat)
  | run
  | permit (name : String) (count : Nat)
  | count
  | shutdown

/-- The answer to a request: the reports on the bus and the events lost there, what each subscriber
saw, and the number of subscribers if it was asked for. -/
structure CrewEntry where
  reports : List Event
  lost : Nat
  seen : List (String × List Sighting)
  count : Option Nat := none

/-- A crew whose hands have turns only when they are told to, and then until nothing more can be
done. -/
structure CrewSession where
  crew : Crew
  /-- The hands that will have a turn. -/
  line : Line Hand := {}
  /-- The receiver's position on the bus of the crew. -/
  position : Nat := 0

namespace CrewSession

/-- A session with a crew that nobody listens for. -/
def ofCrew (crew : Crew) : CrewSession := { crew := crew.perform .stopListening }

/-- Those who were woken get in line. -/
def lineUp (s : CrewSession) : CrewSession :=
  let (hands, crew) := s.crew.takeWoken
  { s with crew, line := s.line.joinAll hands }

/-- At most `fuel` hands have their turns. -/
def takeTurns : (fuel : Nat) → CrewSession → CrewSession
  | 0, s => s
  | fuel + 1, s =>
    match s.line.next? with
    | none => s
    | some (h, line) =>
      let (crew, ending) := s.crew.turn h
      let line := if ending = .cutShort then line.stepAside h else line
      takeTurns fuel { s with crew, line }.lineUp

/-- All have turns until nothing more can be done. A turn that is cut short has dealt with an event
at least, and each hand has one more that is not. -/
def settle (s : CrewSession) : CrewSession :=
  let waiting := s.crew.delivery.subscribers.foldl (fun n m => n + (m.queue.size + 1)) 0
  takeTurns (waiting + s.line.toList.length + 1) s

/-- The crew after a request, before anyone has had a turn. -/
def act (c : Crew) : CrewRequest → Crew
  | .emit event times => Nat.repeat (·.emit event) times c
  | .permit name count => c.permit name count
  | .shutdown => c.openGates
  | .run | .count => c

/-- Do the hands have turns at such a request? -/
def runs : CrewRequest → Bool
  | .run | .permit .. | .shutdown => true
  | .emit .. | .count => false

def isEmit : CrewRequest → Bool
  | .emit .. => true
  | _ => false

/-- Answers a request. The reports of the workers are ordered by the name of the subscriber. -/
def answer (s : CrewSession) (request : CrewRequest) : CrewEntry × CrewSession :=
  let s := { s with crew := act s.crew request }.lineUp
  let s := if runs request then s.settle else s
  let (got, position) := s.crew.delivery.bus.receiveAll s.position
  let (lost, events) := tally got
  let (seen, crew) := s.crew.takeSeen
  ({ reports := if isEmit request then events else Event.inOrder events
     lost
     seen := seen.map fun (name, events) => (name, Sighting.ofEvents events)
     count := match request with
       | .count => some crew.members.length
       | _ => none },
    { s with crew, position })

end CrewSession

end CompileWatch
