import CompileWatch.Arith.Expr

/-!
# Evaluating arithmetic expressions

Terms are worked off from left to right on 64-bit words. The first result that does not fit into a
word ends the evaluation; a wrapped value never comes out.
-/
namespace CompileWatch.Arith

/-- Would the exact result leave the range of a 64-bit word? -/
def Op.overflows (op : Op) (a b : Int64) : Bool :=
  match op with
  | .add => a.toBitVec.saddOverflow b.toBitVec
  | .sub => a.toBitVec.ssubOverflow b.toBitVec
  | .mul => a.toBitVec.smulOverflow b.toBitVec

/-- The result on words, wrapped around where it does not fit. -/
def Op.wrapped (op : Op) (a b : Int64) : Int64 :=
  match op with
  | .add => a + b
  | .sub => a - b
  | .mul => a * b

/-- Works off the terms; an operator as error is the first one whose result does not fit. -/
def evaluateFrom (acc : Int64) : List Term → Except Op Int64
  | [] => .ok acc
  | t :: rest =>
    if t.op.overflows acc t.operand then .error t.op
    else evaluateFrom (t.op.wrapped acc t.operand) rest

/-- The value of an expression. -/
def evaluate (terms : List Term) : Except Op Int64 := evaluateFrom 0 terms

/-- What is said about an operator whose result does not fit. -/
def Op.overflowMessage : Op → String
  | .add => "attempt to add with overflow"
  | .sub => "attempt to subtract with overflow"
  | .mul => "attempt to multiply with overflow"

end CompileWatch.Arith
