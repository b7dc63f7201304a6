import CompileWatch.Text.Quoted
import CompileWatch.Time.Span

/-!
# How a retrieval fails

Either no artifact of the wanted text came in time, or the one that came holds diagnostics. Each
failure has a label for programs, a message for the message sink, and a longer text for people.
-/
namespace CompileWatch

inductive RetrievalFailure where
  | timedOut (code : String) (timeout : Span)
  | diagnostics (count : Nat)
  deriving DecidableEq, Repr

namespace RetrievalFailure

def label : RetrievalFailure → String
  | timedOut .. => "retrieve_timeout"
  | diagnostics _ => "retrieve_diagnostics"

def message : RetrievalFailure → String
  | timedOut code _ => "Time out on compiling expression, " ++ code
  | diagnostics count => "diagnostics: " ++ toString count

def text : RetrievalFailure → String
  | timedOut code timeout =>
    "timed out after " ++ timeout.text ++ " waiting for a compile of " ++ Text.quoted code
  | diagnostics count => "compile produced " ++ toString count ++ " diagnostic(s)"

def isTimeout : RetrievalFailure → Bool
  | timedOut .. => true
  | diagnostics _ => false

end RetrievalFailure

end CompileWatch
