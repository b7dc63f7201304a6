import CompileWatch.Time.Span

/-!
# How a stop fails

Either attempts were still running when the grace time was over, or the run had already died.
-/
namespace CompileWatch

inductive StopError where
  | graceExceeded (grace : Span) (abandoned : Nat)
  | supervisorPanicked (reason : String)
  deriving DecidableEq, Repr

namespace StopError

def label : StopError → String
  | graceExceeded .. => "engine_grace_exceeded"
  | supervisorPanicked _ => "engine_supervisor_panicked"

def message : StopError → String
  | graceExceeded grace abandoned =>
    "grace exceeded after " ++ grace.text ++ "; abandoned attempts=" ++ toString abandoned
  | supervisorPanicked reason => "supervisor died: " ++ reason

def text : StopError → String
  | graceExceeded grace abandoned =>
    "stop grace " ++ grace.text ++ " exceeded; abandoned " ++ toString abandoned ++ " attempt(s)"
  | supervisorPanicked reason => "supervisor loop terminated abnormally: " ++ reason

end StopError

/-- What a stop comes to. -/
abbrev StopResult := Except StopError Unit

end CompileWatch
