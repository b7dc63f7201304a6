import CompileWatch.Attempt.Basic

/-!
# An attempt by itself

An attempt that runs from beginning to end without anybody acting in between.
-/
namespace CompileWatch

/-- What an attempt that ran undisturbed did. -/
structure Attempt.Account (α : Type) where
  /-- How it ended; none if it did not come to an end. -/
  conclusion : Option Attempt.Conclusion
  slot : Slot α
  events : List Event
  compileCalled : Bool

namespace Attempt

variable {α β : Type}

/-- Takes up to `fuel` steps of its own and collects the events that are sent. -/
def finish : (fuel : Nat) → Slot α → Attempt α → Attempt α × Slot α × List Event
  | 0, slot, a => (a, slot, [])
  | fuel + 1, slot, a =>
    match a.next? 0 slot with
    | none => (a, slot, [])
    | some move =>
      let (last, final, events) := finish fuel move.slot move.attempt
      (last, final, (move.sent.map (·.event)).toList ++ events)

/-- Compiles the source text and offers the artifact to the slot. -/
def solo (c : Compiler β α) (slot : Slot α) (generation : Generation) (source : String)
    (cancelled : Bool) : Account α :=
  let answer := c.run source cancelled
  let begun : Attempt α := { generation, run := 0, source, cancelled := answer.cancelled }
  let (last, final, events) :=
    finish longestTail slot { begun with stage := begun.stageAfter answer.outcome }
  let conclusion := match last.stage with
    | .finished how => how
    | _ => none
  ⟨conclusion, final, events, answer.compileCalled⟩

end Attempt

end CompileWatch
