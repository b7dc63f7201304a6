import CompileWatch.Arith.Compiler

/-!
# Scripted compilers

A script fixes in advance what a compiler does with one source text, and may hold the compile in
one of its phases until it is released. A phase that has waited gives up if the token is cancelled,
unless the script is stubborn. A book of scripts is a compiler that never has to wait: texts that
it does not list are compiled as arithmetic expressions.
-/
namespace CompileWatch

inductive CompilePhase where
  | parse
  | compile
  deriving DecidableEq, Repr

/-- What a compiler does with one source text. -/
structure Script where
  parse : Outcome Unit := .value ()
  compile : Outcome Int64 := .value 0
  /-- The phase that first waits to be released. -/
  hold : Option CompilePhase := none
  /-- Does a phase that waited go on although the token is cancelled? -/
  stubborn : Bool := false
  /-- Does the second phase cancel the token of its own attempt? -/
  cancelsItself : Bool := false
  deriving Repr

/-- Does the phase give up, once it has waited? -/
def Script.givesUp (s : Script) (phase : CompilePhase) (cancelled : Bool) : Bool :=
  s.hold = some phase && cancelled && !s.stubborn

/-- How the first phase ends. -/
def Script.parseOutcome (s : Script) (cancelled : Bool) : Outcome Unit :=
  if s.givesUp .parse cancelled then .refused .canceled else s.parse

/-- What the second phase does. It looks at the token before it cancels it itself. -/
def Script.compileCall (s : Script) (cancelled : Bool) : PhaseCall Int64 :=
  if s.givesUp .compile cancelled then { outcome := .refused .canceled }
  else { outcome := s.compile, cancelsItself := s.cancelsItself }

/-- Scripts by source text. -/
structure ScriptBook where
  scripts : List (String × Script) := []
  /-- Is the arithmetic compiler stubborn? -/
  stubborn : Bool := false

namespace ScriptBook

/-- What the first phase hands to the second. -/
inductive Parsed where
  | scripted (script : Script)
  | expr (expr : Arith.Expr)

def script? (b : ScriptBook) (source : String) : Option Script := b.scripts.lookup source

/-- The phase that holds a source text. -/
def hold? (b : ScriptBook) (source : String) : Option CompilePhase :=
  (b.script? source).bind (·.hold)

/-- Does a compile of the text that has waited heed a cancelled token? -/
def heeds (b : ScriptBook) (source : String) : Bool :=
  match b.script? source with
  | some script => !script.stubborn
  | none => !b.stubborn

/-- The compiler that the book describes. -/
def compiler (b : ScriptBook) : Compiler Parsed Int64 where
  parse source cancelled :=
    match b.script? source with
    | some script =>
      match script.parseOutcome cancelled with
      | .value _ => { outcome := .value (.scripted script) }
      | .refused why => { outcome := .refused why }
      | .panicked payload => { outcome := .panicked payload }
    | none =>
      match ((Arith.compiler b.stubborn).parse source cancelled).outcome with
      | .value expr => { outcome := .value (.expr expr) }
      | .refused why => { outcome := .refused why }
      | .panicked payload => { outcome := .panicked payload }
  compile parsed cancelled :=
    match parsed with
    | .scripted script => script.compileCall cancelled
    | .expr expr => (Arith.compiler b.stubborn).compile expr cancelled

end ScriptBook

end CompileWatch
