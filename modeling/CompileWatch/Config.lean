import CompileWatch.Time.Span

/-!
# Configuration

The times and sizes of a service. Polling intervals below a millisecond and an empty bus are
raised to the least that works.
-/
namespace CompileWatch

structure Config where
  /-- Time between two looks at the source text. -/
  pollInterval : Span := .ofMillis 1
  /-- Longest time between two looks of a retrieval at the slot. -/
  retrievePoll : Span := .ofMillis 10
  /-- How long a retrieval waits unless told otherwise. -/
  retrieveTimeout : Span := .ofSecs 2 0
  /-- How long a stop waits for the attempts that are still running. -/
  grace : Span := .ofSecs 5 0
  /-- The events that the bus keeps for slow receivers. -/
  busCapacity : Nat := 1024
  deriving DecidableEq, Repr, Inhabited

namespace Config

/-- The shortest polling interval. -/
def shortestPoll : Span := .ofMillis 1

def effectivePollInterval (c : Config) : Span := max c.pollInterval shortestPoll

def effectiveRetrievePoll (c : Config) : Span := max c.retrievePoll shortestPoll

def effectiveBusCapacity (c : Config) : Nat := max c.busCapacity 1

theorem one_le_ticks_effectivePollInterval (c : Config) : 1 ≤ c.effectivePollInterval.ticks := by
  simp only [effectivePollInterval, shortestPoll, Span.ticks, Span.nanos_max, Span.ofMillis]
  omega

theorem one_le_ticks_effectiveRetrievePoll (c : Config) : 1 ≤ c.effectiveRetrievePoll.ticks := by
  simp only [effectiveRetrievePoll, shortestPoll, Span.ticks, Span.nanos_max, Span.ofMillis]
  omega

end Config

end CompileWatch
