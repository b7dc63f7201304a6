import CompileWatch.Proofs.Grammar
import CompileWatch.Proofs.Solo

/-!
# Exact values and overflows

Evaluating an expression on words is measured against working off its terms over the integers. As
long as every value on the way is that of a word, the two agree; at the first value that is not, the
compiler panics with the name of the operator, even if terms that are still to come would lead back
into the range. An attempt makes a failed artifact of the panic.
-/
namespace CompileWatch.Arith

/-! ## Exact values -/

/-- The result over the integers, which know no limits. -/
def Op.exact : Op → Int → Int → Int
  | .add, a, b => a + b
  | .sub, a, b => a - b
  | .mul, a, b => a * b

/-- Is it the value of a 64-bit word? -/
def IsWord (v : Int) : Prop := -2 ^ 63 ≤ v ∧ v < 2 ^ 63

instance (v : Int) : Decidable (IsWord v) := inferInstanceAs (Decidable (_ ∧ _))

/-- The exact value of the first `k` terms, worked off from left to right from `v` on. -/
def valueAfter (v : Int) (terms : List Term) (k : Nat) : Int :=
  (terms.take k).foldl (fun v t => t.op.exact v t.operand.toInt) v

/-- Every value on the way is that of a word. -/
def StaysInRange (v : Int) (terms : List Term) : Prop :=
  ∀ k ≤ terms.length, IsWord (valueAfter v terms k)

/-- The term `t`, which comes after `k` others, is the first with a result that is not the value of
a word. Nothing is asked of the terms after it. -/
structure FirstOverflow (v : Int) (terms : List Term) (k : Nat) (t : Term) : Prop where
  term : terms[k]? = some t
  before : ∀ j ≤ k, IsWord (valueAfter v terms j)
  leaves : ¬ IsWord (valueAfter v terms (k + 1))

variable {v : Int} {acc : Int64} {t u : Term} {terms rest : List Term} {k : Nat}

@[simp] theorem valueAfter_zero (v : Int) (terms : List Term) : valueAfter v terms 0 = v := rfl

@[simp] theorem valueAfter_cons_succ (v : Int) (t : Term) (rest : List Term) (k : Nat) :
    valueAfter v (t :: rest) (k + 1) = valueAfter (t.op.exact v t.operand.toInt) rest k := rfl

theorem isWord_toInt (n : Int64) : IsWord n.toInt := ⟨Int64.le_toInt n, Int64.toInt_lt n⟩

theorem staysInRange_cons_iff :
    StaysInRange v (t :: rest) ↔ IsWord v ∧ StaysInRange (t.op.exact v t.operand.toInt) rest := by
  constructor
  · intro h
    exact ⟨h 0 (Nat.zero_le _), fun k hk => h (k + 1) (Nat.succ_le_succ hk)⟩
  · rintro ⟨hv, hrest⟩ k hk
    cases k with
    | zero => exact hv
    | succ k => exact hrest k (Nat.le_of_succ_le_succ hk)

theorem firstOverflow_cons_zero_iff : FirstOverflow v (t :: rest) 0 u ↔
    t = u ∧ IsWord v ∧ ¬ IsWord (t.op.exact v t.operand.toInt) := by
  constructor
  · intro h
    exact ⟨Option.some.inj h.term, h.before 0 (Nat.le_refl 0), h.leaves⟩
  · rintro ⟨rfl, hv, hleaves⟩
    refine ⟨rfl, ?_, hleaves⟩
    intro j hj
    rw [Nat.le_zero.mp hj]
    exact hv

theorem firstOverflow_cons_succ_iff : FirstOverflow v (t :: rest) (k + 1) u ↔
    IsWord v ∧ FirstOverflow (t.op.exact v t.operand.toInt) rest k u := by
  constructor
  · intro h
    exact ⟨h.before 0 (Nat.zero_le _), h.term,
      fun j hj => h.before (j + 1) (Nat.succ_le_succ hj), h.leaves⟩
  · rintro ⟨hv, h⟩
    refine ⟨h.term, ?_, h.leaves⟩
    intro j hj
    cases j with
    | zero => exact hv
    | succ j => exact h.before j (Nat.le_of_succ_le_succ hj)

/-- The range is left somewhere or nowhere. -/
theorem staysInRange_or_firstOverflow (hv : IsWord v) (terms : List Term) :
    StaysInRange v terms ∨ ∃ k t, FirstOverflow v terms k t := by
  induction terms generalizing v with
  | nil =>
    left
    intro k _
    cases k <;> exact hv
  | cons t rest ih =>
    by_cases hnext : IsWord (t.op.exact v t.operand.toInt)
    · obtain hrest | ⟨k, u, hu⟩ := ih hnext
      · exact .inl (staysInRange_cons_iff.mpr ⟨hv, hrest⟩)
      · exact .inr ⟨k + 1, u, firstOverflow_cons_succ_iff.mpr ⟨hv, hu⟩⟩
    · exact .inr ⟨0, t, firstOverflow_cons_zero_iff.mpr ⟨rfl, hv, hnext⟩⟩

/-! ## One operation on words -/

theorem Op.overflows_iff (op : Op) (a b : Int64) :
    op.overflows a b = true ↔ ¬ IsWord (op.exact a.toInt b.toInt) := by
  have hrange (x : Int) :
      (decide (x ≥ 2 ^ (64 - 1)) || decide (x < -2 ^ (64 - 1))) = true ↔ ¬ IsWord x := by
    unfold IsWord
    rw [Bool.or_eq_true, decide_eq_true_iff, decide_eq_true_iff]
    omega
  cases op with
  | add => exact hrange (a.toInt + b.toInt)
  | sub => exact hrange (a.toInt - b.toInt)
  | mul => exact hrange (a.toInt * b.toInt)

theorem Op.toInt_wrapped {op : Op} {a b : Int64} (h : IsWord (op.exact a.toInt b.toInt)) :
    (op.wrapped a b).toInt = op.exact a.toInt b.toInt := by
  have hmod : (op.exact a.toInt b.toInt).bmod (2 ^ 64) = op.exact a.toInt b.toInt := by
    obtain ⟨hlow, hhigh⟩ := h
    apply Int.bmod_eq_of_le_mul_two <;> omega
  cases op with
  | add => exact (Int64.toInt_add a b).trans hmod
  | sub => exact (Int64.toInt_sub a b).trans hmod
  | mul => exact (Int64.toInt_mul a b).trans hmod

theorem evaluateFrom_cons_of_isWord (h : IsWord (t.op.exact acc.toInt t.operand.toInt)) :
    evaluateFrom acc (t :: rest) = evaluateFrom (t.op.wrapped acc t.operand) rest := by
  rw [evaluateFrom, if_neg]
  rw [Op.overflows_iff]
  exact not_not_intro h

theorem evaluateFrom_cons_of_not_isWord (h : ¬ IsWord (t.op.exact acc.toInt t.operand.toInt)) :
    evaluateFrom acc (t :: rest) = .error t.op := by
  rw [evaluateFrom, if_pos ((Op.overflows_iff _ _ _).mpr h)]

/-! ## The evaluation of all terms -/

theorem evaluateFrom_of_staysInRange (h : StaysInRange acc.toInt terms) :
    ∃ w, evaluateFrom acc terms = .ok w ∧
      w.toInt = valueAfter acc.toInt terms terms.length := by
  induction terms generalizing acc with
  | nil => exact ⟨acc, rfl, rfl⟩
  | cons t rest ih =>
    obtain ⟨-, hrest⟩ := staysInRange_cons_iff.mp h
    have hword := hrest 0 (Nat.zero_le _)
    rw [valueAfter_zero] at hword
    -- the word that is gone on with has the exact value, for it was not wrapped
    rw [evaluateFrom_cons_of_isWord hword, List.length_cons, valueAfter_cons_succ,
      ← Op.toInt_wrapped hword]
    rw [← Op.toInt_wrapped hword] at hrest
    exact ih hrest

theorem evaluateFrom_of_firstOverflow (h : FirstOverflow acc.toInt terms k t) :
    evaluateFrom acc terms = .error t.op := by
  induction terms generalizing acc k with
  | nil => cases h.term
  | cons u rest ih =>
    cases k with
    | zero =>
      obtain ⟨rfl, -, hleaves⟩ := firstOverflow_cons_zero_iff.mp h
      exact evaluateFrom_cons_of_not_isWord hleaves
    | succ k =>
      obtain ⟨-, hrest⟩ := firstOverflow_cons_succ_iff.mp h
      have hword := hrest.before 0 (Nat.zero_le _)
      rw [valueAfter_zero] at hword
      rw [evaluateFrom_cons_of_isWord hword]
      rw [← Op.toInt_wrapped hword] at hrest
      exact ih hrest

theorem evaluate_of_staysInRange (h : StaysInRange 0 terms) :
    ∃ w, evaluate terms = .ok w ∧ w.toInt = valueAfter 0 terms terms.length := by
  have hzero : StaysInRange (0 : Int64).toInt terms := h
  exact evaluateFrom_of_staysInRange hzero

theorem evaluate_of_firstOverflow (h : FirstOverflow 0 terms k t) :
    evaluate terms = .error t.op := by
  have hzero : FirstOverflow (0 : Int64).toInt terms k t := h
  exact evaluateFrom_of_firstOverflow hzero

/-! ## Texts that were parsed -/

theorem Chain.exists_eq_cons {op : Op} {text : List Char} (h : Chain op text terms) :
    ∃ n rest, terms = ⟨op, n⟩ :: rest := by
  cases h with
  | last _ => exact ⟨_, _, rfl⟩
  | more _ _ => exact ⟨_, _, rfl⟩

/-- What was added to 0 first is the value of a word. -/
theorem isWord_valueAfter_one (n : Int64) (rest : List Term) :
    IsWord (valueAfter 0 (⟨.add, n⟩ :: rest) 1) := by
  show IsWord (0 + n.toInt)
  rw [Int.zero_add]
  exact isWord_toInt n

variable {stubborn cancelled : Bool} {source : String} {expr : Expr}

theorem exists_of_parsePhase (h : parsePhase source = .value expr) :
    ∃ n rest, expr.terms = ⟨.add, n⟩ :: rest := by
  by_cases hsource : source = explosive
  · rw [parsePhase, if_pos hsource] at h
    cases h
  · rw [parsePhase_of_ne hsource] at h
    cases hparse : parse source with
    | error problem => rw [hparse] at h; cases h
    | ok parsed =>
      rw [hparse] at h
      cases h
      obtain ⟨text, -, hchain⟩ := parse_eq_ok_iff.mp hparse
      exact hchain.exists_eq_cons

/-- Nobody cuts the evaluation short who is not there, is not heeded, or comes when nothing is slept
through. -/
theorem compilePhase_of_awake (h : expr.delay = 0 ∨ cancelled = false ∨ stubborn = true) :
    compilePhase stubborn expr cancelled = match evaluate expr.terms with
      | .ok n => .value n
      | .error op => .panicked (.message op.overflowMessage) := by
  apply if_neg
  rintro ⟨hdelay, hcancelled, hstubborn⟩
  obtain hzero | hfalse | htrue := h
  · omega
  · rw [hfalse] at hcancelled
    cases hcancelled
  · exact hstubborn htrue

theorem run_of_parsePhase (h : parsePhase source = .value expr) :
    (compiler stubborn).run source false = ⟨compilePhase stubborn expr false, false, true⟩ := by
  have hfirst : (compiler stubborn).parse source false = { outcome := .value expr } := by
    rw [← h]
    rfl
  unfold Compiler.run
  rw [hfirst]
  rfl

/-- The newest attempt of the text puts the artifact into the slot, whatever was there. -/
def Stores (stubborn : Bool) (source : String) (artifact : Generation → Artifact Int64) : Prop :=
  ∀ (slot : Slot Int64) (g : Generation), slot.floor ≤ g → slot.stored < g →
    (Attempt.solo (compiler stubborn) slot g source false).outcome? = some .published ∧
      (Attempt.solo (compiler stubborn) slot g source false).slot =
        { slot with latest := some (artifact g) }

theorem stores_of_compilePhase {outcome : Outcome Int64} {artifact : Generation → Artifact Int64}
    (hparse : parsePhase source = .value expr)
    (hcompile : compilePhase stubborn expr false = outcome)
    (hartifact : ∀ g, Attempt.artifactOf? source g outcome = some (artifact g)) :
    Stores stubborn source artifact := by
  intro slot g hfloor hstored
  have hrun : (compiler stubborn).run source false = ⟨outcome, false, true⟩ := by
    rw [run_of_parsePhase hparse, hcompile]
  exact Attempt.solo_of_newest hrun (hartifact g) hfloor hstored

/-- What becomes of an expression that a text was parsed as. -/
structure ExactOrPanics (stubborn cancelled : Bool) (source : String) (expr : Expr) : Prop where
  /-- The first number is added to 0, and never overflows. -/
  first : ∃ n rest, expr.terms = ⟨.add, n⟩ :: rest ∧ IsWord (valueAfter 0 expr.terms 1)
  /-- The range is left somewhere or nowhere. -/
  settled : StaysInRange 0 expr.terms ∨ ∃ k t, FirstOverflow 0 expr.terms k t
  /-- If it is never left, the exact value comes out, and gets into the slot. -/
  exact : StaysInRange 0 expr.terms → ∃ w : Int64,
    w.toInt = valueAfter 0 expr.terms expr.terms.length ∧
    ((compiler stubborn).compile expr cancelled).outcome = .value w ∧
    Stores stubborn source fun g => .compiled source g w
  /-- If it is left, the first operator to do so is what the compiler panics about, and a failed
  artifact that says so gets into the slot. -/
  panics (k : Nat) (t : Term) : FirstOverflow 0 expr.terms k t →
    ((compiler stubborn).compile expr cancelled).outcome =
      .panicked (.message t.op.overflowMessage) ∧
    Stores stubborn source fun g =>
      .failed source g [.error ("compiler panicked: " ++ t.op.overflowMessage)]

/-- Every expression that a text is parsed as is evaluated exactly or up to its first overflow,
unless a cancellation in its sleep comes first. -/
theorem evaluation_exact_or_panics {stubborn before cancelled : Bool} {source : String}
    {expr : Expr} (hparse : ((compiler stubborn).parse source before).outcome = .value expr)
    (hawake : expr.delay = 0 ∨ cancelled = false ∨ stubborn = true) :
    ExactOrPanics stubborn cancelled source expr ∧
      Op.overflowMessage .add = "attempt to add with overflow" ∧
      Op.overflowMessage .sub = "attempt to subtract with overflow" ∧
      Op.overflowMessage .mul = "attempt to multiply with overflow" := by
  have hphase : parsePhase source = .value expr := hparse
  have hcompile := compilePhase_of_awake hawake
  have hcalm : expr.delay = 0 ∨ false = false ∨ stubborn = true := .inr (.inl rfl)
  have hattempt := compilePhase_of_awake hcalm
  refine ⟨{ first := ?_, settled := ?_, exact := ?_, panics := ?_ }, rfl, rfl, rfl⟩
  · obtain ⟨n, rest, hterms⟩ := exists_of_parsePhase hphase
    refine ⟨n, rest, hterms, ?_⟩
    rw [hterms]
    exact isWord_valueAfter_one n rest
  · exact staysInRange_or_firstOverflow (by decide) expr.terms
  · intro hrange
    obtain ⟨w, heval, hvalue⟩ := evaluate_of_staysInRange hrange
    rw [heval] at hcompile hattempt
    exact ⟨w, hvalue, hcompile, stores_of_compilePhase hphase hattempt fun _ => rfl⟩
  · intro k t hfirst
    rw [evaluate_of_firstOverflow hfirst] at hcompile hattempt
    exact ⟨hcompile, stores_of_compilePhase hphase hattempt fun _ => rfl⟩

/-- One more than the largest word, and one less again. -/
def detour : Expr := ⟨0, [⟨.add, Int64.maxValue⟩, ⟨.add, 1⟩, ⟨.sub, 1⟩]⟩

/-- That the exact value is that of a word again at the end does not help. -/
theorem evaluation_exact_or_panics_detour :
    ((compiler false).parse "9223372036854775807+1-1" false).outcome = .value detour ∧
      IsWord (valueAfter 0 detour.terms 3) ∧
      ((compiler false).compile detour false).outcome =
        .panicked (.message "attempt to add with overflow") ∧
      Stores false "9223372036854775807+1-1" fun g => .failed "9223372036854775807+1-1" g
        [.error "compiler panicked: attempt to add with overflow"] := by
  have hparse : ((compiler false).parse "9223372036854775807+1-1" false).outcome =
      .value detour := by rfl
  have hfirst : FirstOverflow 0 detour.terms 1 ⟨.add, 1⟩ := by
    refine ⟨rfl, ?_, by decide⟩
    intro j hj
    obtain rfl | rfl : j = 0 ∨ j = 1 := by omega
    · decide
    · decide
  obtain ⟨hpanics, hstores⟩ :=
    (evaluation_exact_or_panics hparse (.inl rfl)).1.panics 1 ⟨.add, 1⟩ hfirst
  exact ⟨hparse, by decide, hpanics, hstores⟩

/-- The smallest word is no overflow. No text spells it, but subtraction leads there. -/
example : evaluate [⟨.add, 0⟩, ⟨.sub, Int64.maxValue⟩, ⟨.sub, 1⟩] = .ok Int64.minValue := by rfl

end CompileWatch.Arith
