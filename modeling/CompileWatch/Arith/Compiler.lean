import CompileWatch.Arith.Parser
import CompileWatch.Arith.Eval
import CompileWatch.Compiler.Outcome

/-!
# The arithmetic compiler

Parsing and evaluating expressions as the two phases of a compiler. A delay is slept through in the
second phase, where a cancelled token ends the compile unless the compiler is stubborn. The text
`panic` makes it panic.
-/
namespace CompileWatch.Arith

/-- The source text that makes the parser panic. -/
def explosive : String := "panic"

def parsePhase (source : String) : Outcome Expr :=
  if source = explosive then .panicked (.message "arith exploded")
  else match parse source with
    | .ok expr => .value expr
    | .error problem => .refused (.diagnostics [.error problem.message])

def compilePhase (stubborn : Bool) (expr : Expr) (cancelled : Bool) : Outcome Int64 :=
  if 0 < expr.delay ∧ cancelled ∧ ¬ stubborn then .refused .canceled
  else match evaluate expr.terms with
    | .ok n => .value n
    | .error op => .panicked (.message op.overflowMessage)

/-- The compiler of arithmetic expressions. -/
def compiler (stubborn : Bool) : Compiler Expr Int64 where
  parse source _ := { outcome := parsePhase source }
  compile expr cancelled := { outcome := compilePhase stubborn expr cancelled }

end CompileWatch.Arith
