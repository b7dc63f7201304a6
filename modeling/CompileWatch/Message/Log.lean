import CompileWatch.Diagnostic

/-!
# The message log

Diagnostics in the order of their arrival.
-/
namespace CompileWatch

structure MessageLog where
  entries : Array Diagnostic := #[]
  deriving DecidableEq, Repr, Inhabited

namespace MessageLog

def push (l : MessageLog) (d : Diagnostic) : MessageLog := ⟨l.entries.push d⟩

/-- Appends a batch as one unit. -/
def extend (l : MessageLog) (ds : List Diagnostic) : MessageLog := ⟨l.entries ++ ds⟩

/-- Appends a batch one diagnostic at a time. -/
def pushEach (l : MessageLog) (ds : List Diagnostic) : MessageLog := ds.foldl push l

/-- The messages of one severity, oldest first. -/
def messages (l : MessageLog) (severity : Severity) : List String :=
  (l.entries.toList.filter (·.severity = severity)).map (·.message)

/-- Takes everything out of the log. -/
def drain (l : MessageLog) : List Diagnostic × MessageLog := (l.entries.toList, {})

def size (l : MessageLog) : Nat := l.entries.size

def isEmpty (l : MessageLog) : Bool := l.entries.isEmpty

@[simp] theorem entries_push (l : MessageLog) (d : Diagnostic) :
    (l.push d).entries = l.entries ++ [d] := rfl

@[simp] theorem entries_extend (l : MessageLog) (ds : List Diagnostic) :
    (l.extend ds).entries = l.entries ++ ds := rfl

@[simp] theorem extend_nil (l : MessageLog) : l.extend [] = l := by simp [extend]

/-- Whether a batch comes as one unit or one by one makes no difference to the log. -/
theorem pushEach_eq_extend (l : MessageLog) (ds : List Diagnostic) :
    l.pushEach ds = l.extend ds := by
  induction ds generalizing l with
  | nil => simp [pushEach, extend]
  | cons d ds ih => simpa [pushEach, extend, push] using ih (l.push d)

theorem push_extend (l : MessageLog) (ds : List Diagnostic) (d : Diagnostic) :
    (l.extend ds).push d = l.extend (ds ++ [d]) := by
  rw [← pushEach_eq_extend, ← pushEach_eq_extend, pushEach, pushEach, List.foldl_append]
  rfl

end MessageLog

end CompileWatch
