/-!
# Live text

A text that is shared and edited. Every edit counts, also one that leaves the text as it was; a
watcher knows how many edits it has taken note of.
-/
namespace CompileWatch

structure LiveText where
  text : String := ""
  /-- How often the text has been set. -/
  edits : Nat := 0
  deriving DecidableEq, Repr, Inhabited

namespace LiveText

def set (t : LiveText) (text : String) : LiveText := ⟨text, t.edits + 1⟩

def clear (t : LiveText) : LiveText := t.set ""

/-- One who follows a live text: the number of edits taken note of. -/
structure Watcher where
  noted : Nat
  deriving DecidableEq, Repr, Inhabited

/-- A new watcher has taken note of the present text. -/
def watch (t : LiveText) : Watcher := ⟨t.edits⟩

/-- Has the text been set since the watcher last took note of it? -/
def Watcher.changed (w : Watcher) (t : LiveText) : Bool := w.noted != t.edits

/-- Reads the text and takes note of it. -/
def Watcher.read (_ : Watcher) (t : LiveText) : String × Watcher := (t.text, t.watch)

@[simp] theorem changed_watch (t : LiveText) : t.watch.changed t = false := by
  simp [watch, Watcher.changed]

theorem changed_set (t : LiveText) (text : String) : t.watch.changed (t.set text) = true := by
  simp [watch, Watcher.changed, set]

end LiveText

end CompileWatch
