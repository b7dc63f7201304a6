import CompileWatch.Arith.Expr
import CompileWatch.Text.Blank

/-!
# Parsing arithmetic expressions

`[sleep:<ms>;]<int> ((+|-|*) <int>)*`, with white space allowed everywhere in the expression, even
inside a number. The first problem from left to right is reported, and a number is judged at the
operator or the end that closes it.
-/
namespace CompileWatch.Arith

/-- What can be wrong with a source text. -/
inductive Problem where
  | missingSeparator
  | badDelay
  | unexpected (c : Char)
  | missingInteger
  | integerTooLarge
  deriving DecidableEq, Repr

def Problem.message : Problem → String
  | .missingSeparator => "missing ';' after sleep"
  | .badDelay => "bad sleep duration"
  | .unexpected c => "unexpected '" ++ c.toString ++ "'"
  | .missingInteger => "unexpected end of expression"
  | .integerTooLarge => "integer literal too large"

/-- The number that a run of decimal digits spells. -/
def decimalValue (digits : List Char) : Nat :=
  digits.foldl (fun n c => 10 * n + (c.toNat - '0'.toNat)) 0

/-- The number that a run of decimal digits spells, or the limit if that is less. No number on the
way is much larger than the limit, however long the run is. -/
def decimalUpTo (limit : Nat) (digits : List Char) : Nat :=
  digits.foldl (fun n c => min (10 * n + (c.toNat - '0'.toNat)) limit) 0

theorem decimalUpTo_eq (limit : Nat) (digits : List Char) :
    decimalUpTo limit digits = min (decimalValue digits) limit := by
  have key : ∀ (digits : List Char) (n : Nat),
      digits.foldl (fun n c => min (10 * n + (c.toNat - '0'.toNat)) limit) (min n limit) =
        min (digits.foldl (fun n c => 10 * n + (c.toNat - '0'.toNat)) n) limit := by
    intro digits
    induction digits with
    | nil => intro n; rfl
    | cons c rest ih =>
      intro n
      rw [List.foldl_cons, List.foldl_cons, ← ih]
      congr 1
      omega
  rw [decimalUpTo, decimalValue, ← key, Nat.zero_min]

/-- The operand that a run of digits spells. -/
def operand (digits : List Char) : Except Problem Int64 :=
  let value := decimalUpTo (Nat.pow 2 63) digits
  if digits = [] then .error .missingInteger
  else if value < Nat.pow 2 63 then .ok (Int64.ofNat value)
  else .error .integerTooLarge

/-- Reads the rest of an expression without white space. The operator `op` and the digits `digits`
of the present operand have been read, the newest first. -/
def termsFrom (op : Op) (digits : List Char) : List Char → Except Problem (List Term)
  | [] => (operand digits.reverse).map fun n => [⟨op, n⟩]
  | c :: rest =>
    if c.isDigit then termsFrom op (c :: digits) rest
    else match Op.ofChar? c with
      | none => .error (.unexpected c)
      | some next =>
        match operand digits.reverse with
        | .error problem => .error problem
        | .ok n => (termsFrom next [] rest).map (⟨op, n⟩ :: ·)

/-- The terms of an expression. -/
def terms (text : List Char) : Except Problem (List Term) :=
  termsFrom .add [] (text.filter fun c => !Text.isBlank c)

/-- A 64-bit count in decimal digits, with an optional plus sign in front and nothing else. -/
def delay? (text : List Char) : Option Nat :=
  let digits := if text.head? = some '+' then text.tail else text
  let value := decimalUpTo (Nat.pow 2 64) digits
  if digits ≠ [] ∧ digits.all Char.isDigit ∧ value < Nat.pow 2 64 then some value else none

/-- The word that announces a delay. -/
def delayWord : List Char := "sleep:".toList

/-- Parses a source text. -/
def parse (source : String) : Except Problem Expr :=
  let text := source.toList
  if delayWord.isPrefixOf text then
    let rest := text.drop delayWord.length
    if ';' ∈ rest then
      match delay? (rest.takeWhile (· ≠ ';')) with
      | none => .error .badDelay
      | some delay =>
        (terms (rest.dropWhile (· ≠ ';')).tail).map fun ts => ⟨delay, ts⟩
    else .error .missingSeparator
  else (terms text).map fun ts => ⟨0, ts⟩

end CompileWatch.Arith
