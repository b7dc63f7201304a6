import CompileWatch.Compiler.Outcome
import CompileWatch.Event.Basic
import CompileWatch.Limit
import CompileWatch.Queue

/-!
# Subscribers

Each subscriber has a bounded queue of its own and one worker, which takes the oldest event out of
the queue and handles it. An event is offered to a queue without waiting: it is accepted, or it is
refused because the queue is full or the worker is gone.
-/
namespace CompileWatch

structure Subscriber where
  name : String
  /-- The places that the queue was asked to have. -/
  capacity : Nat
  /-- The accepted events that the worker has not taken. -/
  queue : Queue Event := {}
  /-- The event that the worker is handling. -/
  inHand : Option Event := none
  /-- Is the worker there? -/
  alive : Bool := true
  deriving Repr, Inhabited

namespace Subscriber

/-- How an offer ends. -/
inductive Offer where
  | accepted
  | full
  | closed
  deriving DecidableEq, Repr

def Offer.name : Offer → String
  | accepted => "accepted"
  | full => "full"
  | closed => "closed"

/-- The places in the queue: at least one. -/
def places (s : Subscriber) : Nat := max s.capacity 1

/-- The most places that a queue can have: the free places are counted in a 64-bit word of which
three bits are taken. -/
def mostPlaces : Nat := Nat.pow 2 61 - 1

/-- Refuses a queue that is too long. -/
def checkCapacity (capacity : Nat) : Except LimitError Unit :=
  if mostPlaces < capacity then .error (.queueTooLong mostPlaces) else .ok ()

theorem checkCapacity_eq_ok_iff {capacity : Nat} :
    checkCapacity capacity = .ok () ↔ capacity ≤ mostPlaces := by
  unfold checkCapacity
  split <;> simp_all

/-- How an offer to the subscriber would end now. -/
def verdict (s : Subscriber) : Offer :=
  if !s.alive then .closed else if s.queue.size < s.places then .accepted else .full

/-- The subscriber after an event was offered. -/
def offer (s : Subscriber) (e : Event) : Subscriber :=
  if s.verdict = .accepted then { s with queue := s.queue.enqueue e } else s

/-- The report of a refused offer. A refused report of a refusal is not reported. -/
def refusalReport (s : Subscriber) (e : Event) : Option Event :=
  match s.verdict with
  | .accepted => none
  | why => if e.kind = .subscriberOverflow then none else some (.overflow s.name why.name)

/-- The worker takes the oldest event, if it has none in hand. -/
def receive? (s : Subscriber) : Option Subscriber :=
  match s.inHand, s.queue.dequeue? with
  | none, some (e, queue) => if s.alive then some { s with queue, inHand := some e } else none
  | _, _ => none

/-- The worker is done with the event in hand. -/
def finish? (s : Subscriber) : Option (Event × Subscriber) :=
  s.inHand.map fun e => (e, { s with inHand := none })

/-- The worker ends with the event in hand, and the queue with it. -/
def die? (s : Subscriber) : Option Subscriber :=
  s.inHand.map fun _ => { s with inHand := none, queue := {}, alive := false }

theorem one_le_places (s : Subscriber) : 1 ≤ s.places := Nat.le_max_right _ _

theorem verdict_eq_accepted_iff {s : Subscriber} :
    s.verdict = .accepted ↔ s.alive = true ∧ s.queue.size < s.places := by
  unfold verdict
  cases s.alive
  · simp
  · by_cases h : s.queue.size < s.places <;> simp [h]

theorem verdict_eq_full_iff {s : Subscriber} :
    s.verdict = .full ↔ s.alive = true ∧ s.places ≤ s.queue.size := by
  unfold verdict
  cases s.alive
  · simp
  · by_cases h : s.queue.size < s.places
    · simp [h]
    · simpa [h] using Nat.not_lt.1 h

@[simp] theorem places_offer (s : Subscriber) (e : Event) : (s.offer e).places = s.places := by
  unfold offer
  split <;> rfl

theorem queue_offer (s : Subscriber) (e : Event) :
    (s.offer e).queue = if s.verdict = .accepted then s.queue.enqueue e else s.queue := by
  unfold offer
  split <;> rfl

/-- Offers never make a queue longer than it has places. -/
theorem size_queue_offer_le {s : Subscriber} (h : s.queue.size ≤ s.places) (e : Event) :
    (s.offer e).queue.size ≤ (s.offer e).places := by
  rw [places_offer, queue_offer]
  split
  · next ha => exact (verdict_eq_accepted_iff.1 ha).2
  · exact h

/-- A refusal is passed over in silence only if what was refused is itself the report of one. -/
theorem refusalReport_eq_none_iff {s : Subscriber} {e : Event} :
    s.refusalReport e = none ↔ s.verdict = .accepted ∨ e.kind = .subscriberOverflow := by
  unfold refusalReport
  cases s.verdict <;> simp

end Subscriber

end CompileWatch
