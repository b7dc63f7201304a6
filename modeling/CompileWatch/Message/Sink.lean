import CompileWatch.Message.Log

/-!
# Message sinks

Where failures are reported to. A sink may take a batch of diagnostics whole, or one at a time; it
is remembered what it was given, call by call.
-/
namespace CompileWatch

structure MessageSink where
  /-- Does the sink take a batch as one unit? -/
  takesBatches : Bool := true
  /-- The diagnostics of each call of the sink, oldest first. -/
  calls : List (List Diagnostic) := []
  deriving DecidableEq, Repr, Inhabited

namespace MessageSink

def push (s : MessageSink) (d : Diagnostic) : MessageSink :=
  { s with calls := s.calls ++ [[d]] }

def extend (s : MessageSink) (ds : List Diagnostic) : MessageSink :=
  if s.takesBatches then { s with calls := s.calls ++ [ds] } else ds.foldl push s

/-- The log that holds everything the sink was given. -/
def log (s : MessageSink) : MessageLog := ⟨s.calls.flatten.toArray⟩

@[simp] theorem log_push (s : MessageSink) (d : Diagnostic) : (s.push d).log = s.log.push d := by
  simp [log, push, MessageLog.push]

theorem log_foldl_push (s : MessageSink) (ds : List Diagnostic) :
    (ds.foldl push s).log = s.log.extend ds := by
  induction ds generalizing s with
  | nil => simp [log, MessageLog.extend]
  | cons d ds ih => simp [ih, MessageLog.extend]

@[simp] theorem log_extend (s : MessageSink) (ds : List Diagnostic) :
    (s.extend ds).log = s.log.extend ds := by
  unfold extend
  split
  · simp [log, MessageLog.extend]
  · exact log_foldl_push s ds

end MessageSink

end CompileWatch
