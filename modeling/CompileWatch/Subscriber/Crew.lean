import CompileWatch.Line
import CompileWatch.Subscriber.Delivery

/-!
# A crew of subscribers

Subscribers with fixed habits. The hands of a crew are its listener and its workers. A hand works
in turns, and waits when there is nothing left for it to do. It is woken by what gives it something
to do again: the listener by an event on the bus, a worker by an event in its empty queue, or by a
permit if it stands at its gate. Who is woken gets a turn later, in the order of waking.
-/
namespace CompileWatch

/-- What a subscriber does with the events that it is given. -/
structure Habit where
  /-- Does it need a permit for every event? -/
  gated : Bool := false
  /-- The kinds of events that it cannot take. -/
  panicsOn : List EventKind := []
  /-- What its panics leave behind. -/
  payload : PanicPayload := .message "static text"
  /-- Does its worker end for good at such an event, instead of panicking? -/
  dies : Bool := false
  deriving Repr, Inhabited

/-- Those who do the work of a crew. -/
inductive Hand where
  | listener
  /-- The worker of the `i`-th subscriber. -/
  | worker (i : Nat)
  deriving DecidableEq, Repr

/-- A worker, with the permits it has left and the events it has seen since last asked. -/
structure CrewMember where
  habit : Habit
  permits : Nat := 0
  /-- Is the worker at work, or will it have a turn? Otherwise it waits to be woken. -/
  awake : Bool := true
  /-- The events seen, newest first. -/
  seen : List Event := []
  deriving Inhabited

structure Crew where
  delivery : Delivery
  /-- One for each subscriber. -/
  members : List CrewMember := []
  /-- Do the gates stand open? -/
  gatesOpen : Bool := false
  /-- Is the listener at work, or will it have a turn? Otherwise it waits to be woken. -/
  listenerAwake : Bool := true
  /-- Those who are awake and have not got in line for a turn, the last one first. -/
  woken : List Hand := []

namespace Crew

/-- A crew on a bus of the given capacity. All hands are awake, the workers before the listener. -/
def ofHabits (busCapacity : Nat) (subscribers : List (String × Nat × Habit)) : Crew where
  delivery :=
    { bus := .ofCapacity busCapacity
      subscribers := subscribers.map fun (name, capacity, _) => { name, capacity } }
  members := subscribers.map fun (_, _, habit) => { habit }
  woken := .listener :: ((List.range subscribers.length).map .worker).reverse

/-- A crew on a bus of the given capacity, if the bus and then each of the queues can be had. -/
def ofHabits? (busCapacity : Nat) (subscribers : List (String × Nat × Habit)) :
    Except LimitError Crew := do
  Bus.checkCapacity busCapacity
  subscribers.forM fun (_, capacity, _) => Subscriber.checkCapacity capacity
  return ofHabits busCapacity subscribers

/-- A crew that is not refused is the one that was asked for. -/
theorem eq_ofHabits_of_ofHabits? {busCapacity : Nat} {subscribers : List (String × Nat × Habit)}
    {c : Crew} (h : ofHabits? busCapacity subscribers = .ok c) :
    c = ofHabits busCapacity subscribers := by
  simp only [ofHabits?, bind, Except.bind, pure, Except.pure] at h
  grind

def perform (c : Crew) (a : Delivery.Action) : Crew :=
  { c with delivery := c.delivery.perform a }

def putMember (c : Crew) (i : Nat) (m : CrewMember) : Crew :=
  { c with members := c.members.set i m }

/-- The event in hand of the `i`-th worker. -/
def inHand? (c : Crew) (i : Nat) : Option Event :=
  (c.delivery.subscribers[i]?).bind (·.inHand)

/-- May a worker that has an event in hand go through its gate? -/
def mayPass (c : Crew) (m : CrewMember) : Bool :=
  !m.habit.gated || c.gatesOpen || m.permits != 0

/-- Is there something for a waiting hand to do? -/
def canGoOn (c : Crew) : Hand → Bool
  | .listener => (c.delivery.step? .listen).isSome
  | .worker i =>
    match c.delivery.subscribers[i]?, c.members[i]? with
    | some s, some m => if s.inHand.isSome then c.mayPass m else s.alive && s.queue.size != 0
    | _, _ => false

def isAwake (c : Crew) : Hand → Bool
  | .listener => c.listenerAwake
  | .worker i => match c.members[i]? with
    | some m => m.awake
    | none => true

/-- Says of a hand whether it is awake. -/
def setAwake (c : Crew) (awake : Bool) : Hand → Crew
  | .listener => { c with listenerAwake := awake }
  | .worker i => { c with members := c.members.modify i fun m => { m with awake } }

/-- Wakes a waiting hand, if there is something for it to do. -/
def rouse (c : Crew) (h : Hand) : Crew :=
  if c.isAwake h || !c.canGoOn h then c
  else { c.setAwake true h with woken := h :: c.woken }

/-- Wakes all workers for whom there is something to do. -/
def rouseWorkers (c : Crew) : Crew :=
  (List.range c.members.length).foldl (fun c i => c.rouse (.worker i)) c

/-- An event is published. -/
def publish (c : Crew) (e : Event) : Crew := (c.perform (.publish e)).rouse .listener

/-- An event is offered to every subscriber in turn, from outside. -/
def emit (c : Crew) (e : Event) : Crew :=
  (List.range c.members.length).foldl
    (fun c i => ((c.perform (.offer i e)).rouse (.worker i)).rouse .listener) c

/-- The listener offers the event that it holds to every subscriber in turn. -/
def handOut (c : Crew) : Crew :=
  ((List.range c.members.length).foldl
    (fun c i => (c.perform .hand).rouse (.worker i)) c).perform .hand

/-- The listener takes up to `room` things from the bus and hands them out. -/
def listenUpTo : (room : Nat) → Crew → Crew × TurnEnd
  | 0, c => (c, .cutShort)
  | room + 1, c =>
    match c.delivery.step? .listen with
    | none => (c, .done)
    | some delivery => listenUpTo room { c with delivery }.handOut

/-- The `i`-th worker is done with the event in hand, which it notes as seen. -/
def finish (c : Crew) (i : Nat) (m : CrewMember) (e : Event) : Crew :=
  let panic := if m.habit.panicsOn.contains e.kind then some m.habit.payload else none
  ((c.perform (.finish i panic)).putMember i
    { m with permits := m.permits - 1, seen := e :: m.seen }).rouse .listener

/-- The `i`-th worker works until there is nothing left to do or no room for more, at most `fuel`
steps. To take an event out of the queue takes room, and so does a gate on the way. -/
def workUpTo : (fuel room : Nat) → Crew → Nat → Crew × TurnEnd
  | 0, _, c, _ => (c, .cutShort)
  | fuel + 1, room, c, i =>
    match c.members[i]?, c.inHand? i with
    | none, _ => (c, .done)
    | some _, none =>
      if room = 0 then (c, .cutShort)
      else match c.delivery.step? (.receive i) with
        | none => (c, .done)
        | some delivery => workUpTo fuel (room - 1) { c with delivery } i
    | some m, some e =>
      if m.habit.dies && m.habit.panicsOn.contains e.kind then (c.perform (.die i), .done)
      else if !m.habit.gated then workUpTo fuel room (c.finish i m e) i
      else if room = 0 then (c, .cutShort)
      else if c.mayPass m then workUpTo fuel (room - 1) (c.finish i m e) i
      else (c, .done)

/-- A hand has its turn. Between two events that a worker takes there is one that it finishes, so
that twice the room, and a step at each end, is fuel enough. -/
def turn (c : Crew) (h : Hand) : Crew × TurnEnd :=
  let (c, ending) := match h with
    | .listener => listenUpTo Line.turnLength c
    | .worker i => workUpTo (2 * Line.turnLength + 2) Line.turnLength c i
  (if ending = .done then c.setAwake false h else c, ending)

/-- Gives permits to the subscribers of a name. -/
def permit (c : Crew) (name : String) (n : Nat) : Crew :=
  let members := (c.delivery.subscribers.zip c.members).map fun (s, m) =>
    if s.name = name then { m with permits := m.permits + n } else m
  { c with members }.rouseWorkers

def openGates (c : Crew) : Crew := { c with gatesOpen := true }.rouseWorkers

/-- Those who were woken, in the order of waking; they are now left to the caller. -/
def takeWoken (c : Crew) : List Hand × Crew := (c.woken.reverse, { c with woken := [] })

/-- The events that each subscriber has seen since last asked, by name, oldest first. -/
def takeSeen (c : Crew) : List (String × List Event) × Crew :=
  ((c.delivery.subscribers.zip c.members).map fun (s, m) => (s.name, m.seen.reverse),
    { c with members := c.members.map fun m => { m with seen := [] } })

end Crew

end CompileWatch
