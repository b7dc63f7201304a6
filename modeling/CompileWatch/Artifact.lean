import CompileWatch.Diagnostic

/-!
# Artifacts

What one finished compile leaves behind: the exact source text, the number of the attempt, and
either the compiled form or the diagnostics that stand in its place. A failed compile always has at
least one diagnostic, so that "succeeded" and "has no diagnostics" are one thing.
-/
namespace CompileWatch

/-- The generation of an attempt: attempts are numbered 1, 2, 3, … in the order they are made, and
0 stands for "none yet". -/
abbrev Generation := Nat

/-- What a compile came to. -/
inductive Artifact.Content (α : Type) where
  | compiled (value : α)
  | failed (first : Diagnostic) (rest : List Diagnostic)
  deriving DecidableEq, Repr

/-- The result of compiling `source` in the attempt numbered `generation`. -/
structure Artifact (α : Type) where
  source : String
  generation : Generation
  content : Artifact.Content α
  deriving DecidableEq, Repr

namespace Artifact

variable {α : Type}

/-- The diagnostic of a compile that failed without saying why. -/
def unexplained : Diagnostic := .error "compilation failed without diagnostics"

def compiled (source : String) (generation : Generation) (value : α) : Artifact α :=
  ⟨source, generation, .compiled value⟩

/-- A failed compile; an empty list of diagnostics is filled with the generic one. -/
def failed (source : String) (generation : Generation) : List Diagnostic → Artifact α
  | [] => ⟨source, generation, .failed unexplained []⟩
  | first :: rest => ⟨source, generation, .failed first rest⟩

/-- The compiled form, if the compile succeeded. -/
def value? (a : Artifact α) : Option α :=
  match a.content with
  | .compiled value => some value
  | .failed .. => none

def diagnostics (a : Artifact α) : List Diagnostic :=
  match a.content with
  | .compiled _ => []
  | .failed first rest => first :: rest

def succeeded (a : Artifact α) : Bool := a.diagnostics.isEmpty

/-- Was the artifact compiled from exactly this text? -/
def isFor (a : Artifact α) (code : String) : Bool := a.source == code

@[simp] theorem isFor_iff {a : Artifact α} {code : String} :
    a.isFor code = true ↔ a.source = code := by
  simp [isFor]

@[simp] theorem value?_compiled (s : String) (g : Generation) (v : α) :
    (compiled s g v).value? = some v := rfl

@[simp] theorem diagnostics_compiled (s : String) (g : Generation) (v : α) :
    (compiled s g v).diagnostics = [] := rfl

@[simp] theorem value?_failed (s : String) (g : Generation) (ds : List Diagnostic) :
    (failed s g ds : Artifact α).value? = none := by
  cases ds <;> rfl

theorem diagnostics_failed (s : String) (g : Generation) (ds : List Diagnostic) :
    (failed s g ds : Artifact α).diagnostics = if ds = [] then [unexplained] else ds := by
  cases ds <;> simp [failed, diagnostics]

/-- An artifact has either a compiled form or diagnostics, never both and never neither. -/
theorem value?_isSome_iff (a : Artifact α) : a.value?.isSome ↔ a.diagnostics = [] := by
  cases h : a.content <;> simp [value?, diagnostics, h]

theorem succeeded_iff (a : Artifact α) : a.succeeded = true ↔ a.value?.isSome := by
  simp [succeeded, value?_isSome_iff]

@[simp] theorem generation_compiled (s : String) (g : Generation) (v : α) :
    (compiled s g v).generation = g := rfl

@[simp] theorem generation_failed (s : String) (g : Generation) (ds : List Diagnostic) :
    (failed s g ds : Artifact α).generation = g := by
  cases ds <;> rfl

@[simp] theorem source_compiled (s : String) (g : Generation) (v : α) :
    (compiled s g v).source = s := rfl

@[simp] theorem source_failed (s : String) (g : Generation) (ds : List Diagnostic) :
    (failed s g ds : Artifact α).source = s := by
  cases ds <;> rfl

end Artifact

end CompileWatch
