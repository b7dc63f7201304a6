/-!
# Arithmetic expressions

The language of the toy compiler: a chain of additions, subtractions and multiplications of 64-bit
integers, worked off strictly from left to right, with an optional delay in front.
-/
namespace CompileWatch.Arith

inductive Op where
  | add
  | sub
  | mul
  deriving DecidableEq, Repr, Inhabited

namespace Op

def symbol : Op → Char
  | add => '+'
  | sub => '-'
  | mul => '*'

def ofChar? : Char → Option Op
  | '+' => some add
  | '-' => some sub
  | '*' => some mul
  | _ => none

@[simp] theorem ofChar?_symbol (op : Op) : ofChar? op.symbol = some op := by
  cases op <;> rfl

theorem ofChar?_eq_some {c : Char} {op : Op} (h : ofChar? c = some op) : c = op.symbol := by
  unfold ofChar? at h
  split at h <;> first | cases h; rfl | cases h

theorem ofChar?_eq_none_iff {c : Char} : ofChar? c = none ↔ ∀ op : Op, c ≠ op.symbol := by
  constructor
  · intro h op hc
    rw [hc, ofChar?_symbol] at h
    cases h
  · intro h
    cases hop : ofChar? c with
    | none => rfl
    | some op => exact absurd (ofChar?_eq_some hop) (h op)

@[simp] theorem isDigit_symbol (op : Op) : op.symbol.isDigit = false := by
  cases op <;> rfl

end Op

/-- One operand with the operator in front of it. The first operand of an expression is added to
zero. -/
structure Term where
  op : Op
  operand : Int64
  deriving DecidableEq, Repr

/-- A parsed expression: the milliseconds to sleep first, and the terms in order. -/
structure Expr where
  delay : Nat
  terms : List Term
  deriving DecidableEq, Repr

end CompileWatch.Arith
