import CompileWatch.Message.Sink
import CompileWatch.Retrieval.Basic

/-!
# The board

The slot with the retrievals that wait in front of it, the sink that they report to, and the clock
that they go by.
-/
namespace CompileWatch

structure Board (α : Type) where
  /-- The present tick of the millisecond clock. -/
  now : Nat := 0
  slot : Slot α := {}
  /-- The retrievals that were begun, oldest first. -/
  retrievals : Array (Retrieval α) := #[]
  sink : MessageSink := {}
  /-- The longest time that a retrieval sleeps at a stretch. -/
  poll : Span

namespace Board

variable {α : Type}

def tick (b : Board α) : Board α := { b with now := b.now + 1 }

/-- Puts a retrieval in the place of the `i`-th one. -/
def put (b : Board α) (i : Nat) (r : Retrieval α) : Board α :=
  { b with retrievals := b.retrievals.setIfInBounds i r }

/-- A new retrieval begins. -/
def call (b : Board α) (label code : String) (timeout : Span) : Board α :=
  { b with retrievals := b.retrievals.push { label, code, timeout, begun := b.now } }

/-- Wakes every retrieval that has armed its wake-up. -/
def notify (b : Board α) : Board α := { b with retrievals := b.retrievals.map (·.notify) }

/-- Offers an artifact to the slot, and wakes the retrievals if it is taken. -/
def publish (b : Board α) (a : Artifact α) (cancelled : Bool) : PublishOutcome × Board α :=
  match b.slot.publish a cancelled with
  | (.published, slot) => (.published, { b with slot }.notify)
  | (refusal, slot) => (refusal, { b with slot })

/-- The sink is given a batch. -/
def tell (b : Board α) : Option (List Diagnostic) → Board α
  | none => b
  | some batch => { b with sink := b.sink.extend batch }

/-- The `i`-th retrieval takes its next step, and publishes what it has to say. -/
def ask? (b : Board α) (i : Nat) : Option (Board α × Option Event) :=
  match b.retrievals[i]? with
  | none => none
  | some r => (r.next? b.now b.slot b.poll).map fun move =>
    ((b.put i move.retrieval).tell move.told, move.announced)

/-- The `i`-th retrieval wakes up, if it may. -/
def wake? (b : Board α) (i : Nat) : Option (Board α) :=
  match b.retrievals[i]? with
  | none => none
  | some r => if r.canWake b.now then some (b.put i { r with stage := .arming }) else none

/-- The caller gives the `i`-th retrieval up while it is parked. -/
def abandon? (b : Board α) (i : Nat) : Option (Board α) :=
  match b.retrievals[i]? with
  | none => none
  | some r => if r.isParked then some (b.put i { r with stage := .abandoned }) else none

theorem publish_of_published {b : Board α} {a : Artifact α} {c : Bool}
    (h : b.slot.verdict a c = .published) :
    b.publish a c = (.published, { b with slot := { b.slot with latest := some a } }.notify) := by
  simp [publish, Slot.publish_of_published h]

/-- An offer that is refused leaves the board as it is, and wakes nobody. -/
theorem publish_of_refused {b : Board α} {a : Artifact α} {c : Bool}
    (h : b.slot.verdict a c ≠ .published) : b.publish a c = (b.slot.verdict a c, b) := by
  simp only [publish, Slot.publish_of_refused h]

end Board

end CompileWatch
