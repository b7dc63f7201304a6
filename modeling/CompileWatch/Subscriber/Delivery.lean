import CompileWatch.Bus.Basic
import CompileWatch.Steps
import CompileWatch.Subscriber.Basic

/-!
# Delivery

How events get from the bus to the subscribers. A listener takes one event after the other from
the bus and offers it to each subscriber in turn. Refusals and panics are put on the bus as events
themselves, so that they come round to the subscribers again.
-/
namespace CompileWatch

structure Delivery where
  bus : Bus Event
  subscribers : List Subscriber := []
  /-- The listener's position on the bus. -/
  position : Nat := 0
  /-- The event that the listener is handing out, and the next subscriber to offer it to. -/
  handing : Option (Event × Nat) := none
  /-- Is the listener there? -/
  listening : Bool := true

namespace Delivery

/-- What can happen next. -/
inductive Action where
  /-- An event is published from outside. -/
  | publish (e : Event)
  /-- An event is offered to the `i`-th subscriber from outside. -/
  | offer (i : Nat) (e : Event)
  /-- The listener takes what comes next from the bus. -/
  | listen
  /-- The listener offers the event it holds to the next subscriber. -/
  | hand
  /-- The `i`-th worker takes an event out of its queue. -/
  | receive (i : Nat)
  /-- The `i`-th worker is done with an event; did handling it panic? -/
  | finish (i : Nat) (panic : Option PanicPayload)
  /-- The `i`-th worker ends for good. -/
  | die (i : Nat)
  /-- The listener ends. -/
  | stopListening

def publish (d : Delivery) (e : Event) : Delivery := { d with bus := d.bus.publish e }

/-- Publishes an event if there is one. -/
def report (d : Delivery) : Option Event → Delivery
  | none => d
  | some e => d.publish e

/-- Offers an event to the `i`-th subscriber and reports a refusal. -/
def offer? (d : Delivery) (i : Nat) (e : Event) : Option Delivery :=
  match d.subscribers[i]? with
  | none => none
  | some s => some
      ({ d with subscribers := d.subscribers.set i (s.offer e) }.report (s.refusalReport e))

/-- Performs an action, if it can happen now. -/
def step? (d : Delivery) : Action → Option Delivery
  | .publish e => some (d.publish e)
  | .offer i e => d.offer? i e
  | .listen =>
    if d.listening && d.handing.isNone then
      match d.bus.receive d.position with
      | (.item e, next) => some { d with position := next, handing := some (e, 0) }
      | (.lagged _, next) => some { d with position := next }
      | (.empty, _) | (.closed, _) => none
    else none
  | .hand =>
    match d.handing with
    | none => none
    | some (e, i) =>
      if i < d.subscribers.length then
        (d.offer? i e).map fun d => { d with handing := some (e, i + 1) }
      else some { d with handing := none }
  | .receive i =>
    match d.subscribers[i]? with
    | none => none
    | some s => s.receive?.map fun s => { d with subscribers := d.subscribers.set i s }
  | .finish i panic =>
    match d.subscribers[i]? with
    | none => none
    | some s => s.finish?.map fun (_, idle) =>
      { d with subscribers := d.subscribers.set i idle }.report
        (panic.map fun (payload : PanicPayload) => .subscriberPanic s.name payload.text)
  | .die i =>
    match d.subscribers[i]? with
    | none => none
    | some s => s.die?.map fun s => { d with subscribers := d.subscribers.set i s }
  | .stopListening => some { d with listening := false, handing := none }

/-- Performs an action; one that cannot happen changes nothing. -/
def perform (d : Delivery) (a : Action) : Delivery := (d.step? a).getD d

/-- The state after a list of actions, if each could happen in its turn. -/
def steps? : Delivery → List Action → Option Delivery
  | d, [] => some d
  | d, a :: rest => (d.step? a).bind (·.steps? rest)

/-- Offers an event to every subscriber in turn, from outside. -/
def emit (d : Delivery) (e : Event) : Delivery :=
  (List.range d.subscribers.length).foldl (fun d i => d.perform (.offer i e)) d

@[simp] theorem steps?_nil (d : Delivery) : d.steps? [] = some d := rfl

theorem steps?_cons (d : Delivery) (a : Action) (rest : List Action) :
    d.steps? (a :: rest) = (d.step? a).bind (·.steps? rest) := rfl

theorem performs_steps? : Performs step? steps? := ⟨fun _ => rfl, fun _ _ _ => rfl⟩

end Delivery

end CompileWatch
