import CompileWatch.Diagnostic

/-!
# Outcomes of a compiler

The service looks at a compiler from outside only. Each of its two phases, parsing a text and
compiling what was parsed, ends in one of four ways; the second phase is entered only when the
first gave a value.
-/
namespace CompileWatch

/-- What a panicking piece of host code leaves behind: a text, or something that is none. Only the
text is looked at before the payload is destroyed. The destructors of payloads, and those of the
values that a compiler gives, are taken not to panic themselves: such a panic could come up outside
the places where panics are caught, and the model has no step for it. -/
inductive PanicPayload where
  | message (text : String)
  | other
  deriving DecidableEq, Repr

/-- The text under which a panic is reported. -/
def PanicPayload.text : PanicPayload → String
  | .message text => text
  | .other => "unknown panic"

/-- The refusals that a compiler can answer with. -/
inductive CompileError where
  | diagnostics (list : List Diagnostic)
  | canceled
  deriving DecidableEq, Repr

def CompileError.message : CompileError → String
  | .diagnostics list => toString list.length ++ " diagnostic(s)"
  | .canceled => "compile cancelled"

/-- How a phase of a compiler ends. -/
inductive Outcome (α : Type) where
  | value (a : α)
  | refused (why : CompileError)
  | panicked (payload : PanicPayload)
  deriving DecidableEq, Repr

/-- What one call of a phase did. The compiler is handed the token of its own attempt, and may
cancel it itself. -/
structure PhaseCall (α : Type) where
  outcome : Outcome α
  cancelsItself : Bool := false
  deriving Repr

/-- A compiler in two phases. Each is told whether the attempt's token is cancelled when it
looks. -/
structure Compiler (β α : Type) where
  parse : (source : String) → (cancelled : Bool) → PhaseCall β
  compile : (parsed : β) → (cancelled : Bool) → PhaseCall α

/-- A whole compile: how it ended, whether the token is cancelled afterwards, and whether the
second phase was entered. -/
structure Compiler.Answer (α : Type) where
  outcome : Outcome α
  cancelled : Bool
  compileCalled : Bool
  deriving Repr

/-- Runs both phases on a text, with a token that is cancelled beforehand or not. -/
def Compiler.run {β α : Type} (c : Compiler β α) (source : String) (cancelled : Bool) :
    Compiler.Answer α :=
  let first := c.parse source cancelled
  let afterParse := cancelled || first.cancelsItself
  match first.outcome with
  | .refused why => ⟨.refused why, afterParse, false⟩
  | .panicked payload => ⟨.panicked payload, afterParse, false⟩
  | .value parsed =>
    let second := c.compile parsed afterParse
    ⟨second.outcome, afterParse || second.cancelsItself, true⟩

/-- Can a compile of the text come to this outcome? Its token may be cancelled at any time, so each
phase looks for itself whether it is. -/
inductive Compiler.Gives {β α : Type} (c : Compiler β α) (source : String) : Outcome α → Prop
  /-- The first phase gives a value, and the second phase settles the outcome. -/
  | compiled {parsed : β} {outcome : Outcome α} {cancelled later : Bool} :
      (c.parse source cancelled).outcome = .value parsed →
      (c.compile parsed later).outcome = outcome → Gives c source outcome
  | refused {why : CompileError} {cancelled : Bool} :
      (c.parse source cancelled).outcome = .refused why → Gives c source (.refused why)
  | panicked {payload : PanicPayload} {cancelled : Bool} :
      (c.parse source cancelled).outcome = .panicked payload → Gives c source (.panicked payload)

/-- A compile that nobody interferes with is one of them. -/
theorem Compiler.gives_run {β α : Type} (c : Compiler β α) (source : String) (cancelled : Bool) :
    c.Gives source (c.run source cancelled).outcome := by
  unfold Compiler.run
  dsimp only
  split
  · next why h => exact .refused h
  · next payload h => exact .panicked h
  · next parsed h => exact .compiled h rfl

/-- A value comes out of the second phase, which was given what the first one made of the text. -/
theorem Compiler.Gives.exists_of_value {β α : Type} {c : Compiler β α} {source : String} {v : α}
    (h : c.Gives source (.value v)) : ∃ parsed cancelled later,
      (c.parse source cancelled).outcome = .value parsed ∧
        (c.compile parsed later).outcome = .value v := by
  cases h with
  | compiled hparse hcompile => exact ⟨_, _, _, hparse, hcompile⟩

end CompileWatch
