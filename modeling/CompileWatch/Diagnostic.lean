/-!
# Diagnostics

A message about a source text, with a severity.
-/
namespace CompileWatch

/-- How serious a diagnostic is, in ascending order. -/
inductive Severity where
  | info
  | warning
  | error
  deriving DecidableEq, Repr, Inhabited

namespace Severity

def rank : Severity → Nat
  | info => 0
  | warning => 1
  | error => 2

def name : Severity → String
  | info => "info"
  | warning => "warning"
  | error => "error"

instance : LE Severity := ⟨fun a b => a.rank ≤ b.rank⟩

instance (a b : Severity) : Decidable (a ≤ b) := inferInstanceAs (Decidable (a.rank ≤ b.rank))

theorem rank_inj {a b : Severity} : a.rank = b.rank ↔ a = b := by
  cases a <;> cases b <;> decide

/-- The severities in ascending order. -/
def sorted (list : List Severity) : List Severity :=
  list.mergeSort fun a b => a ≤ b

end Severity

/-- A message for the reader of a source text. -/
structure Diagnostic where
  severity : Severity
  message : String
  deriving DecidableEq, Repr, Inhabited

namespace Diagnostic

def error (message : String) : Diagnostic := ⟨.error, message⟩

/-- The diagnostic on one line. -/
def text (d : Diagnostic) : String := d.severity.name ++ ": " ++ d.message

end Diagnostic

end CompileWatch
