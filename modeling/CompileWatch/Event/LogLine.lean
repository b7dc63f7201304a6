import CompileWatch.Event.Basic

/-!
# Log lines

How an event is written to a log: a level, a message for its kind, and the details that belong to
that kind, in a fixed order. A text that is missing is written as empty, a number that is missing
as `None`.
-/
namespace CompileWatch

inductive LogLevel where
  | debug
  | info
  | warn
  | error
  deriving DecidableEq, Repr

def LogLevel.name : LogLevel → String
  | debug => "DEBUG"
  | info => "INFO"
  | warn => "WARN"
  | error => "ERROR"

structure LogLine where
  level : LogLevel
  message : String
  fields : List (String × String)
  deriving DecidableEq, Repr

namespace LogLine

/-- The name of the subscriber that writes log lines. -/
def writerName : String := "LogWriter"

/-- The places in the queue of a subscriber that asks for no other number. -/
def defaultCapacity : Nat := 1024

/-- The text of a number that may be missing. -/
def optionText : Option Nat → String
  | none => "None"
  | some n => "Some(" ++ toString n ++ ")"

/-- The line that is written for an event. -/
def ofEvent (e : Event) : LogLine :=
  let source := ("source", e.source.getD "")
  let reason := ("reason", e.reason.getD "")
  let run := ("run", optionText e.run)
  let generation := ("generation", optionText e.generation)
  let millis (name : String) := (name, optionText e.elapsed)
  let subscriber := ("subscriber", e.subscriber.getD "unknown")
  match e.kind with
  | .engineStarted => ⟨.info, "engine started", [run]⟩
  | .engineStopped => ⟨.info, "engine stopped", [run]⟩
  | .graceExceeded =>
    ⟨.warn, "stop grace exceeded", [run, millis "grace_ms", ("abandoned", reason.2)]⟩
  | .sourceChanged => ⟨.debug, "source changed", [run, source]⟩
  | .attemptStarting => ⟨.debug, "attempt starting", [run, generation, source]⟩
  | .attemptSuperseded => ⟨.debug, "attempt superseded", [run, generation]⟩
  | .attemptPublished =>
    ⟨.info, "attempt published", [generation, millis "compile_ms", ("outcome", reason.2)]⟩
  | .attemptDiscarded =>
    ⟨.debug, "attempt discarded", [generation, millis "compile_ms", reason]⟩
  | .compilerPanicked => ⟨.error, "compiler panicked", [generation, source, reason]⟩
  | .retrieveMatched => ⟨.debug, "retrieve matched", [source, generation, millis "waited_ms"]⟩
  | .retrieveFailed => ⟨.warn, "retrieve failed", [source, reason]⟩
  | .retrieveTimedOut => ⟨.warn, "retrieve timed out", [source, millis "waited_ms"]⟩
  | .subscriberOverflow => ⟨.warn, "subscriber overflow", [subscriber, reason]⟩
  | .subscriberPanicked => ⟨.error, "subscriber panicked", [subscriber, reason]⟩

end LogLine

end CompileWatch
