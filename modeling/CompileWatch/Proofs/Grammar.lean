import CompileWatch.Arith.Compiler
import Mathlib.Data.List.DropRight
import Mathlib.Data.Nat.Digits.Defs

/-!
# The grammar of arithmetic expressions

What the parser accepts, said without reading a text character by character: perhaps a delay, and
then numbers with an operator between any two of them. What it complains of is the first place, from
left to right, at which there is something to complain of. A number is judged at the place where it
ends, so that a stray character behind too many digits is what is reported.
-/
namespace CompileWatch.Arith

/-! ## Numbers -/

/-- The number that a run of digits spells by place value, ones at its end and tens before them. -/
def placeValue (digits : List Char) : Nat :=
  Nat.ofDigits 10 (digits.reverse.map fun c => c.toNat - '0'.toNat)

/-- A run of decimal digits that is not empty. -/
structure Decimal (digits : List Char) : Prop where
  ne_nil : digits ≠ []
  isDigit : ∀ c ∈ digits, c.isDigit

/-- A run of digits and the word it stands for. There is none for 2^63 and above. -/
structure Literal (digits : List Char) (n : Int64) : Prop where
  decimal : Decimal digits
  value : n.toInt = placeValue digits

/-- A count of milliseconds, perhaps with a plus sign in front. -/
inductive Count : List Char → Nat → Prop
  | bare {digits : List Char} :
      Decimal digits → placeValue digits < 2 ^ 64 → Count digits (placeValue digits)
  | signed {digits : List Char} :
      Decimal digits → placeValue digits < 2 ^ 64 → Count ('+' :: digits) (placeValue digits)

theorem decimalValue_eq_placeValue (digits : List Char) :
    decimalValue digits = placeValue digits := by
  unfold decimalValue placeValue
  induction digits using List.reverseRecOn with
  | nil => rfl
  | append_singleton digits c ih =>
    rw [List.foldl_append, List.foldl_cons, List.foldl_nil, ih, List.reverse_append,
      List.reverse_singleton, List.singleton_append, List.map_cons, Nat.ofDigits_cons, Nat.add_comm]

theorem decimalUpTo_eq_placeValue (limit : Nat) (digits : List Char) :
    decimalUpTo limit digits = min (placeValue digits) limit := by
  rw [decimalUpTo_eq, decimalValue_eq_placeValue]

theorem toInt_ofNat {v : Nat} (h : v < 2 ^ 63) : (Int64.ofNat v).toInt = v :=
  Int64.toInt_ofNat_of_lt h

@[simp] theorem operand_nil : operand [] = .error .missingInteger := rfl

theorem operand_of_lt {digits : List Char} (h : digits ≠ []) (hv : placeValue digits < 2 ^ 63) :
    operand digits = .ok (Int64.ofNat (placeValue digits)) := by
  have hmin : decimalUpTo (Nat.pow 2 63) digits = placeValue digits := by
    rw [decimalUpTo_eq_placeValue]
    exact Nat.min_eq_left (Nat.le_of_lt hv)
  unfold operand
  rw [if_neg h, hmin]
  exact if_pos hv

theorem operand_of_le {digits : List Char} (h : digits ≠ []) (hv : 2 ^ 63 ≤ placeValue digits) :
    operand digits = .error .integerTooLarge := by
  have hmin : decimalUpTo (Nat.pow 2 63) digits = 2 ^ 63 := by
    rw [decimalUpTo_eq_placeValue]
    exact Nat.min_eq_right hv
  unfold operand
  rw [if_neg h, hmin]
  exact if_neg (Nat.lt_irrefl _)

theorem Literal.operand_eq {digits : List Char} {n : Int64} (h : Literal digits n) :
    operand digits = .ok n := by
  have hv : placeValue digits < 2 ^ 63 := by
    have hlt := Int64.toInt_lt n
    rw [h.value] at hlt
    omega
  rw [operand_of_lt h.decimal.ne_nil hv]
  congr 1
  rw [← Int64.toInt_inj, toInt_ofNat hv, h.value]

theorem literal_of_operand {digits : List Char} {n : Int64} (hall : ∀ c ∈ digits, c.isDigit)
    (h : operand digits = .ok n) : Literal digits n := by
  by_cases hnil : digits = []
  · rw [hnil, operand_nil] at h
    cases h
  by_cases hv : placeValue digits < 2 ^ 63
  · rw [operand_of_lt hnil hv] at h
    cases h
    exact ⟨⟨hnil, hall⟩, toInt_ofNat hv⟩
  · rw [operand_of_le hnil (Nat.le_of_not_lt hv)] at h
    cases h

/-- A count is judged by its digits, which stand behind the sign if there is one. -/
theorem delay?_eq_some_iff_of_digits {text digits : List Char} {n : Nat}
    (hd : (if text.head? = some '+' then text.tail else text) = digits) :
    delay? text = some n ↔ Decimal digits ∧ placeValue digits < 2 ^ 64 ∧ placeValue digits = n := by
  have hmin : decimalUpTo (Nat.pow 2 64) digits = min (placeValue digits) (2 ^ 64) :=
    decimalUpTo_eq_placeValue _ _
  have hpow : Nat.pow 2 64 = 2 ^ 64 := rfl
  unfold delay?
  rw [hd]
  dsimp only
  rw [hmin, hpow]
  constructor
  · intro h
    obtain ⟨⟨hne, hall, hlt⟩, hn⟩ := Option.ite_none_right_eq_some.mp h
    have hlt' : placeValue digits < 2 ^ 64 := by omega
    rw [Nat.min_eq_left (Nat.le_of_lt hlt')] at hn
    exact ⟨⟨hne, List.all_eq_true.mp hall⟩, hlt', Option.some.inj hn⟩
  · rintro ⟨hdec, hlt, rfl⟩
    rw [Nat.min_eq_left (Nat.le_of_lt hlt)]
    exact if_pos ⟨hdec.ne_nil, List.all_eq_true.mpr hdec.isDigit, hlt⟩

theorem delay?_eq_some_iff {text : List Char} {n : Nat} : delay? text = some n ↔ Count text n := by
  constructor
  · intro h
    by_cases hsign : text.head? = some '+'
    · obtain ⟨digits, rfl⟩ := List.head?_eq_some_iff.mp hsign
      obtain ⟨hdec, hlt, rfl⟩ := (delay?_eq_some_iff_of_digits (if_pos hsign)).mp h
      exact .signed hdec hlt
    · obtain ⟨hdec, hlt, rfl⟩ := (delay?_eq_some_iff_of_digits (if_neg hsign)).mp h
      exact .bare hdec hlt
  · intro h
    cases h with
    | bare hdec hlt =>
      -- a run of digits does not begin with a sign
      have hsign : text.head? ≠ some '+' := by
        intro hhead
        exact absurd (hdec.isDigit _ (List.mem_of_head? hhead)) (by decide)
      exact (delay?_eq_some_iff_of_digits (if_neg hsign)).mpr ⟨hdec, hlt, rfl⟩
    | signed hdec hlt =>
      exact (delay?_eq_some_iff_of_digits (if_pos rfl)).mpr ⟨hdec, hlt, rfl⟩

/-! ## What is accepted -/

/-- The text without its white space. -/
def visible (text : List Char) : List Char := text.filter fun c => !Text.isBlank c

/-- What may follow an operator: numbers with an operator between any two of them, and the terms
that they make. -/
inductive Chain : Op → List Char → List Term → Prop
  | last {op : Op} {digits : List Char} {n : Int64} :
      Literal digits n → Chain op digits [⟨op, n⟩]
  | more {op next : Op} {digits rest : List Char} {n : Int64} {terms : List Term} :
      Literal digits n → Chain next rest terms →
      Chain op (digits ++ next.symbol :: rest) (⟨op, n⟩ :: terms)

theorem termsFrom_digit {op : Op} {digits rest : List Char} {c : Char} (h : c.isDigit) :
    termsFrom op digits (c :: rest) = termsFrom op (c :: digits) rest := by
  rw [termsFrom, if_pos h]

theorem termsFrom_symbol (op next : Op) (digits rest : List Char) :
    termsFrom op digits (next.symbol :: rest) =
      match operand digits.reverse with
      | .error problem => .error problem
      | .ok n => (termsFrom next [] rest).map (⟨op, n⟩ :: ·) := by
  rw [termsFrom, Op.isDigit_symbol, Op.ofChar?_symbol]
  rfl

theorem termsFrom_unexpected {op : Op} {digits rest : List Char} {c : Char}
    (hdigit : ¬ c.isDigit) (hop : ∀ next : Op, c ≠ next.symbol) :
    termsFrom op digits (c :: rest) = .error (.unexpected c) := by
  rw [termsFrom, if_neg hdigit, Op.ofChar?_eq_none_iff.mpr hop]

/-- Every character is a digit, an operator, or neither. -/
theorem char_cases (c : Char) :
    c.isDigit ∨ (∃ op : Op, c = op.symbol) ∨ (¬ c.isDigit ∧ ∀ op : Op, c ≠ op.symbol) := by
  by_cases hdigit : c.isDigit
  · exact .inl hdigit
  by_cases hop : ∃ op : Op, c = op.symbol
  · exact .inr (.inl hop)
  · exact .inr (.inr ⟨hdigit, not_exists.mp hop⟩)

/-- A run of digits is read as a whole. -/
theorem termsFrom_append_digits (op : Op) {run : List Char} (hrun : ∀ c ∈ run, c.isDigit)
    (digits rest : List Char) :
    termsFrom op digits (run ++ rest) = termsFrom op (run.reverse ++ digits) rest := by
  induction run generalizing digits with
  | nil => rfl
  | cons c run ih =>
    rw [List.cons_append, termsFrom_digit (hrun c List.mem_cons_self),
      ih fun d hd => hrun d (List.mem_cons_of_mem _ hd), List.reverse_cons, List.append_assoc]
    rfl

theorem termsFrom_of_chain {op : Op} {text : List Char} {ts : List Term} (h : Chain op text ts) :
    termsFrom op [] text = .ok ts := by
  induction h with
  | @last op digits n hn =>
    have hread := termsFrom_append_digits op hn.decimal.isDigit [] []
    rw [List.append_nil, List.append_nil] at hread
    rw [hread, termsFrom, List.reverse_reverse, hn.operand_eq]
    rfl
  | more hn _ ih =>
    rw [termsFrom_append_digits _ hn.decimal.isDigit, List.append_nil, termsFrom_symbol,
      List.reverse_reverse, hn.operand_eq, ih]
    rfl

theorem chain_of_termsFrom {op : Op} {digits rest : List Char} {ts : List Term}
    (hall : ∀ c ∈ digits, c.isDigit) (h : termsFrom op digits rest = .ok ts) :
    Chain op (digits.reverse ++ rest) ts := by
  have hrev : ∀ c ∈ digits.reverse, c.isDigit := fun c hc => hall c (List.mem_reverse.mp hc)
  induction rest generalizing op digits ts with
  | nil =>
    rw [termsFrom] at h
    rw [List.append_nil]
    cases hn : operand digits.reverse with
    | error problem => rw [hn] at h; cases h
    | ok n =>
      rw [hn] at h
      cases h
      exact .last (literal_of_operand hrev hn)
  | cons c rest ih =>
    obtain hdigit | ⟨next, rfl⟩ | ⟨hdigit, hop⟩ := char_cases c
    · rw [termsFrom_digit hdigit] at h
      have hmore : ∀ d ∈ c :: digits, d.isDigit := List.forall_mem_cons.mpr ⟨hdigit, hall⟩
      have hchain := ih hmore h (fun d hd => hmore d (List.mem_reverse.mp hd))
      rw [List.reverse_cons, List.append_assoc] at hchain
      exact hchain
    · rw [termsFrom_symbol] at h
      cases hn : operand digits.reverse with
      | error problem => rw [hn] at h; cases h
      | ok n =>
        rw [hn] at h
        cases hrest : termsFrom next [] rest with
        | error problem => rw [hrest] at h; cases h
        | ok ts' =>
          rw [hrest] at h
          cases h
          have hchain := ih (List.forall_mem_nil _) hrest (List.forall_mem_nil _)
          exact .more (literal_of_operand hrev hn) hchain
    · rw [termsFrom_unexpected hdigit hop] at h
      cases h

theorem termsFrom_eq_ok_iff {op : Op} {text : List Char} {ts : List Term} :
    termsFrom op [] text = .ok ts ↔ Chain op text ts :=
  ⟨chain_of_termsFrom (List.forall_mem_nil _), termsFrom_of_chain⟩

/-! ## What is complained of -/

/-- The digits that stand right before a place. -/
def pending (before : List Char) : List Char := before.rtakeWhile Char.isDigit

/-- Does a number end where this is what follows? -/
inductive Closing : List Char → Prop
  | atEnd : Closing []
  | atSymbol (op : Op) (rest : List Char) : Closing (op.symbol :: rest)

/-- What there is to complain of at a place of a text without white space, by what stands before the
place and what stands behind it. -/
inductive Fault : List Char → List Char → Problem → Prop
  | unexpected {before rest : List Char} {c : Char} :
      ¬ c.isDigit → (∀ op : Op, c ≠ op.symbol) → Fault before (c :: rest) (.unexpected c)
  | missing {before after : List Char} :
      Closing after → pending before = [] → Fault before after .missingInteger
  | tooLarge {before after : List Char} :
      Closing after → 2 ^ 63 ≤ placeValue (pending before) → Fault before after .integerTooLarge

/-- The problem is at a place of `rest`, and there is none at any place before it. What stands
before `rest` is `done`. -/
def Leftmost (done rest : List Char) (problem : Problem) : Prop :=
  ∃ before after, rest = before ++ after ∧ Fault (done ++ before) after problem ∧
    ∀ shorter later other, rest = shorter ++ later → shorter.length < before.length →
      ¬ Fault (done ++ shorter) later other

theorem pending_ne_nil_of_tooLarge {before : List Char}
    (h : 2 ^ 63 ≤ placeValue (pending before)) : pending before ≠ [] := by
  intro hnil
  rw [hnil] at h
  exact absurd h (by decide)

theorem pending_concat_digit {before : List Char} {c : Char} (h : c.isDigit) :
    pending (before ++ [c]) = pending before ++ [c] :=
  List.rtakeWhile_concat_pos _ _ _ h

theorem pending_concat_symbol (before : List Char) (op : Op) :
    pending (before ++ [op.symbol]) = [] :=
  List.rtakeWhile_concat_neg _ _ _ (by rw [Op.isDigit_symbol]; exact Bool.false_ne_true)

theorem fault_of_operand {before after : List Char} {problem : Problem}
    (hclosing : Closing after) (h : operand (pending before) = .error problem) :
    Fault before after problem := by
  by_cases hnil : pending before = []
  · rw [hnil, operand_nil] at h
    cases h
    exact .missing hclosing hnil
  by_cases hv : placeValue (pending before) < 2 ^ 63
  · rw [operand_of_lt hnil hv] at h
    cases h
  · rw [operand_of_le hnil (Nat.le_of_not_lt hv)] at h
    cases h
    exact .tooLarge hclosing (Nat.le_of_not_lt hv)

/-- Reading stops where there is something to complain of. -/
theorem termsFrom_of_fault (op : Op) {before after : List Char} {problem : Problem}
    (h : Fault before after problem) :
    termsFrom op (pending before).reverse after = .error problem := by
  have hstop : ∀ {problem}, Closing after → operand (pending before) = .error problem →
      termsFrom op (pending before).reverse after = .error problem := by
    intro problem hclosing hoperand
    cases hclosing with
    | atEnd => rw [termsFrom, List.reverse_reverse, hoperand]; rfl
    | atSymbol next rest => rw [termsFrom_symbol, List.reverse_reverse, hoperand]
  cases h with
  | unexpected hdigit hop => exact termsFrom_unexpected hdigit hop
  | missing hclosing hnil => exact hstop hclosing (by rw [hnil, operand_nil])
  | tooLarge hclosing hv =>
    exact hstop hclosing (operand_of_le (pending_ne_nil_of_tooLarge hv) hv)

theorem fault_unique {before after : List Char} {first second : Problem}
    (hfirst : Fault before after first) (hsecond : Fault before after second) : first = second := by
  have h := (termsFrom_of_fault .add hfirst).symm.trans (termsFrom_of_fault .add hsecond)
  exact Except.error.inj h

theorem termsFrom_nil_of_not_fault (op : Op) {before : List Char}
    (h : ∀ problem, ¬ Fault before [] problem) :
    ∃ ts, termsFrom op (pending before).reverse [] = .ok ts := by
  rw [termsFrom, List.reverse_reverse]
  cases hn : operand (pending before) with
  | error problem => exact absurd (fault_of_operand .atEnd hn) (h problem)
  | ok n => exact ⟨_, rfl⟩

/-- Where there is nothing to complain of, reading goes on to the next place. -/
theorem termsFrom_cons_of_not_fault (op : Op) {before rest : List Char} {c : Char}
    (h : ∀ problem, ¬ Fault before (c :: rest) problem) :
    ∃ (next : Op) (f : List Term → List Term), termsFrom op (pending before).reverse (c :: rest) =
      (termsFrom next (pending (before ++ [c])).reverse rest).map f := by
  obtain hdigit | ⟨next, rfl⟩ | ⟨hdigit, hop⟩ := char_cases c
  · refine ⟨op, id, ?_⟩
    rw [termsFrom_digit hdigit, pending_concat_digit hdigit, List.reverse_concat]
    cases termsFrom op (c :: (pending before).reverse) rest <;> rfl
  · cases hn : operand (pending before) with
    | error problem => exact absurd (fault_of_operand (.atSymbol next rest) hn) (h problem)
    | ok n =>
      refine ⟨next, (⟨op, n⟩ :: ·), ?_⟩
      rw [termsFrom_symbol, List.reverse_reverse, hn, pending_concat_symbol]
      rfl
  · exact absurd (.unexpected hdigit hop) (h _)

theorem leftmost_iff_of_fault {done rest : List Char} {here problem : Problem}
    (h : Fault done rest here) : Leftmost done rest problem ↔ here = problem := by
  constructor
  · rintro ⟨before, after, hrest, hfault, hfirst⟩
    -- the place in front of all others is the first, so nothing stands before it
    have hnil : before = [] := by
      by_contra hne
      have hlt : ([] : List Char).length < before.length := List.length_pos_of_ne_nil hne
      rw [← List.append_nil done] at h
      exact hfirst [] rest here rfl hlt h
    rw [hnil, List.nil_append] at hrest
    rw [hnil, List.append_nil, ← hrest] at hfault
    exact fault_unique h hfault
  · rintro rfl
    refine ⟨[], rest, rfl, ?_, ?_⟩
    · rw [List.append_nil]
      exact h
    · intro shorter later other _ hlt
      exact absurd hlt (Nat.not_lt_zero _)

theorem not_leftmost_nil {done : List Char} (h : ∀ problem, ¬ Fault done [] problem)
    (problem : Problem) : ¬ Leftmost done [] problem := by
  rintro ⟨before, after, hrest, hfault, -⟩
  obtain ⟨rfl, rfl⟩ := List.append_eq_nil_iff.mp hrest.symm
  rw [List.append_nil] at hfault
  exact h problem hfault

theorem leftmost_cons_iff {done rest : List Char} {c : Char} {problem : Problem}
    (h : ∀ problem, ¬ Fault done (c :: rest) problem) :
    Leftmost done (c :: rest) problem ↔ Leftmost (done ++ [c]) rest problem := by
  constructor
  · rintro ⟨before, after, hrest, hfault, hfirst⟩
    cases before with
    | nil =>
      rw [List.append_nil, ← List.nil_append after, ← hrest] at hfault
      exact absurd hfault (h problem)
    | cons d before =>
      obtain ⟨rfl, rfl⟩ := List.cons_eq_cons.mp hrest
      refine ⟨before, after, rfl, ?_, ?_⟩
      · rw [List.append_assoc]
        exact hfault
      · intro shorter later other hsplit hlt
        rw [List.append_assoc]
        exact hfirst (c :: shorter) later other (by rw [hsplit]; rfl) (Nat.succ_lt_succ hlt)
  · rintro ⟨before, after, rfl, hfault, hfirst⟩
    refine ⟨c :: before, after, rfl, ?_, ?_⟩
    · rw [List.append_assoc] at hfault
      exact hfault
    · intro shorter later other hsplit hlt
      cases shorter with
      | nil =>
        rw [List.nil_append] at hsplit
        rw [List.append_nil, ← hsplit]
        exact h other
      | cons d shorter =>
        obtain ⟨rfl, htail⟩ := List.cons_eq_cons.mp hsplit
        have hnone := hfirst shorter later other htail (Nat.lt_of_succ_lt_succ hlt)
        rw [List.append_assoc] at hnone
        exact hnone

theorem termsFrom_eq_error_iff_of_fault (op : Op) {done rest : List Char} {here problem : Problem}
    (h : Fault done rest here) :
    termsFrom op (pending done).reverse rest = .error problem ↔ Leftmost done rest problem := by
  rw [termsFrom_of_fault op h, leftmost_iff_of_fault h, Except.error.injEq]

/-- Reading a text from a place on ends with the leftmost problem, if there is one. -/
theorem termsFrom_eq_error_iff {op : Op} {done rest : List Char} {problem : Problem} :
    termsFrom op (pending done).reverse rest = .error problem ↔ Leftmost done rest problem := by
  -- along the text, the digits that wait to be judged are those right before the place
  induction rest generalizing op done with
  | nil =>
    by_cases hfault : ∃ here, Fault done [] here
    · obtain ⟨here, hhere⟩ := hfault
      exact termsFrom_eq_error_iff_of_fault op hhere
    · have hnone := not_exists.mp hfault
      obtain ⟨ts, hts⟩ := termsFrom_nil_of_not_fault op hnone
      rw [hts]
      exact iff_of_false (nomatch ·) (not_leftmost_nil hnone problem)
  | cons c rest ih =>
    by_cases hfault : ∃ here, Fault done (c :: rest) here
    · obtain ⟨here, hhere⟩ := hfault
      exact termsFrom_eq_error_iff_of_fault op hhere
    · have hnone := not_exists.mp hfault
      obtain ⟨next, f, hnext⟩ := termsFrom_cons_of_not_fault op hnone
      have hrest : termsFrom next (pending (done ++ [c])).reverse rest = .error problem ↔
          Leftmost (done ++ [c]) rest problem := ih
      rw [hnext, leftmost_cons_iff hnone, ← hrest]
      cases termsFrom next (pending (done ++ [c])).reverse rest with
      | error here => rfl
      | ok ts => exact iff_of_false (nomatch ·) (nomatch ·)

theorem terms_eq_ok_iff {text : List Char} {ts : List Term} :
    terms text = .ok ts ↔ Chain .add (visible text) ts :=
  termsFrom_eq_ok_iff

theorem terms_eq_error_iff {text : List Char} {problem : Problem} :
    terms text = .error problem ↔ Leftmost [] (visible text) problem := by
  show termsFrom .add (pending []).reverse (visible text) = .error problem ↔ _
  exact termsFrom_eq_error_iff

/-! ## Whole texts -/

/-- How a text opens that opens well: with an expression at once, or with a delay that ends at the
first semicolon. The delay comes out of it, and the expression that follows. -/
inductive Opening : List Char → Nat → List Char → Prop
  | plain {text : List Char} : ¬ delayWord <+: text → Opening text 0 text
  | delayed {count rest : List Char} {n : Nat} :
      ';' ∉ count → Count count n → Opening (delayWord ++ (count ++ ';' :: rest)) n rest

/-- How a text opens that does not open well. -/
inductive BadOpening : List Char → Problem → Prop
  | unended {rest : List Char} : ';' ∉ rest → BadOpening (delayWord ++ rest) .missingSeparator
  | miscounted {count rest : List Char} :
      ';' ∉ count → (∀ n, ¬ Count count n) →
      BadOpening (delayWord ++ (count ++ ';' :: rest)) .badDelay

/-- The text is one of the language, and means this expression. -/
def Written (text : List Char) (expr : Expr) : Prop :=
  ∃ rest, Opening text expr.delay rest ∧ Chain .add (visible rest) expr.terms

/-- The text is not one of the language, and this is what is wrong with it. -/
inductive Wrong : List Char → Problem → Prop
  | opening {text : List Char} {problem : Problem} : BadOpening text problem → Wrong text problem
  | expression {text rest : List Char} {n : Nat} {problem : Problem} :
      Opening text n rest → Leftmost [] (visible rest) problem → Wrong text problem

/-- A text opens well or not. -/
theorem opening_cases (text : List Char) :
    (∃ n rest, Opening text n rest) ∨ ∃ problem, BadOpening text problem := by
  by_cases hword : delayWord <+: text
  · obtain ⟨rest, rfl⟩ := hword
    by_cases hmem : ';' ∈ rest
    · obtain ⟨count, rest, rfl, hcount⟩ := List.eq_append_cons_of_mem hmem
      by_cases hn : ∃ n, Count count n
      · obtain ⟨n, hn⟩ := hn
        exact .inl ⟨n, rest, .delayed hcount hn⟩
      · exact .inr ⟨_, .miscounted hcount (not_exists.mp hn)⟩
    · exact .inr ⟨_, .unended hmem⟩
  · exact .inl ⟨0, text, .plain hword⟩

variable {source : String}

theorem parse_of_plain (h : ¬ delayWord <+: source.toList) :
    parse source = (terms source.toList).map (⟨0, ·⟩) := by
  unfold parse
  exact if_neg fun hword => h (List.isPrefixOf_iff_prefix.mp hword)

/-- What comes of a text behind the word for a delay. Everything hangs on what stands up to the first
semicolon. -/
def parseDelayed (rest : List Char) : Except Problem Expr :=
  if ';' ∈ rest then
    match delay? (rest.takeWhile (· ≠ ';')) with
    | none => .error .badDelay
    | some delay => (terms (rest.dropWhile (· ≠ ';')).tail).map (⟨delay, ·⟩)
  else .error .missingSeparator

theorem parse_of_delayWord {rest : List Char} (h : source.toList = delayWord ++ rest) :
    parse source = parseDelayed rest := by
  have hword : delayWord.isPrefixOf (delayWord ++ rest) = true :=
    List.isPrefixOf_iff_prefix.mpr (List.prefix_append _ _)
  unfold parse
  rw [h]
  dsimp only
  rw [if_pos hword, List.drop_left]
  rfl

theorem parse_of_semicolon {count rest : List Char} (hcount : ';' ∉ count)
    (h : source.toList = delayWord ++ (count ++ ';' :: rest)) :
    parse source = match delay? count with
      | none => .error .badDelay
      | some delay => (terms rest).map (⟨delay, ·⟩) := by
  have hne : ∀ c ∈ count, decide (c ≠ ';') = true := by
    intro c hc
    exact decide_eq_true fun heq => hcount (heq ▸ hc)
  rw [parse_of_delayWord h, parseDelayed,
    if_pos (List.mem_append_right _ List.mem_cons_self), List.takeWhile_append_of_pos hne,
    List.dropWhile_append_of_pos hne]
  simp

theorem parse_of_opening {n : Nat} {rest : List Char} (h : Opening source.toList n rest) :
    parse source = (terms rest).map (⟨n, ·⟩) := by
  generalize htext : source.toList = text at h
  cases h with
  | plain hword =>
    subst htext
    exact parse_of_plain hword
  | delayed hcount hn => rw [parse_of_semicolon hcount htext, delay?_eq_some_iff.mpr hn]

theorem parse_of_badOpening {problem : Problem} (h : BadOpening source.toList problem) :
    parse source = .error problem := by
  generalize htext : source.toList = text at h
  cases h with
  | unended hmem => rw [parse_of_delayWord htext, parseDelayed, if_neg hmem]
  | @miscounted count rest hcount hn =>
    have hnone : delay? count = none := by
      rw [Option.eq_none_iff_forall_ne_some]
      intro n hsome
      exact hn n (delay?_eq_some_iff.mp hsome)
    rw [parse_of_semicolon hcount htext, hnone]

theorem parse_eq_ok_iff {expr : Expr} : parse source = .ok expr ↔ Written source.toList expr := by
  constructor
  · intro h
    obtain ⟨n, rest, hopen⟩ | ⟨problem, hbad⟩ := opening_cases source.toList
    · rw [parse_of_opening hopen] at h
      cases hts : terms rest with
      | error problem => rw [hts] at h; cases h
      | ok ts =>
        rw [hts] at h
        cases h
        exact ⟨rest, hopen, terms_eq_ok_iff.mp hts⟩
    · rw [parse_of_badOpening hbad] at h
      cases h
  · rintro ⟨rest, hopen, hchain⟩
    rw [parse_of_opening hopen, terms_eq_ok_iff.mpr hchain]
    rfl

theorem parse_eq_error_iff {problem : Problem} :
    parse source = .error problem ↔ Wrong source.toList problem := by
  constructor
  · intro h
    obtain ⟨n, rest, hopen⟩ | ⟨here, hbad⟩ := opening_cases source.toList
    · rw [parse_of_opening hopen] at h
      cases hts : terms rest with
      | ok ts => rw [hts] at h; cases h
      | error here =>
        rw [hts] at h
        cases h
        exact .expression hopen (terms_eq_error_iff.mp hts)
    · rw [parse_of_badOpening hbad] at h
      cases h
      exact .opening hbad
  · intro h
    cases h with
    | opening hbad => exact parse_of_badOpening hbad
    | expression hopen hleft =>
      rw [parse_of_opening hopen, terms_eq_error_iff.mpr hleft]
      rfl

/-- A stray character is reported even behind too many digits, which are judged later. -/
example : parse "99999999999999999999 x" = .error (.unexpected 'x') := by rfl

/-- What a compiler makes of a text in its first phase, if it goes by the grammar: it takes exactly
the texts of the language, for what they mean, and says of any other text what is wrong with it, and
nothing else. -/
structure GoesByGrammar (answer : PhaseCall Expr) (text : List Char) : Prop where
  accepted (expr : Expr) : answer.outcome = .value expr ↔ Written text expr
  refused (why : CompileError) : answer.outcome = .refused why ↔
    ∃ problem, Wrong text problem ∧ why = .diagnostics [.error problem.message]
  calm (payload : PanicPayload) : answer.outcome ≠ .panicked payload

theorem parsePhase_of_ne (h : source ≠ explosive) :
    parsePhase source = match parse source with
      | .ok expr => .value expr
      | .error problem => .refused (.diagnostics [.error problem.message]) :=
  if_neg h

/-- Every text but one is parsed by the grammar, with the leftmost problem as the one diagnostic. -/
theorem parser_goes_by_grammar (stubborn cancelled : Bool) {source : String}
    (h : source ≠ "panic") :
    GoesByGrammar ((compiler stubborn).parse source cancelled) source.toList ∧
      Problem.message .missingSeparator = "missing ';' after sleep" ∧
      Problem.message .badDelay = "bad sleep duration" ∧
      (∀ c : Char, Problem.message (.unexpected c) = "unexpected '" ++ c.toString ++ "'") ∧
      Problem.message .missingInteger = "unexpected end of expression" ∧
      Problem.message .integerTooLarge = "integer literal too large" := by
  refine ⟨?_, rfl, rfl, fun _ => rfl, rfl, rfl⟩
  have hphase : ((compiler stubborn).parse source cancelled).outcome = parsePhase source := rfl
  cases hparse : parse source with
  | ok expr =>
    have hvalue : parsePhase source = .value expr := by rw [parsePhase_of_ne h, hparse]
    constructor
    · intro other
      rw [hphase, hvalue, ← parse_eq_ok_iff, hparse, Outcome.value.injEq, Except.ok.injEq]
    · intro why
      rw [hphase, hvalue]
      apply iff_of_false (nomatch ·)
      rintro ⟨problem, hwrong, -⟩
      rw [← parse_eq_error_iff, hparse] at hwrong
      cases hwrong
    · intro payload
      rw [hphase, hvalue]
      exact (nomatch ·)
  | error problem =>
    have hrefused : parsePhase source = .refused (.diagnostics [.error problem.message]) := by
      rw [parsePhase_of_ne h, hparse]
    constructor
    · intro expr
      rw [hphase, hrefused, ← parse_eq_ok_iff, hparse]
      exact iff_of_false (nomatch ·) (nomatch ·)
    · intro why
      rw [hphase, hrefused, Outcome.refused.injEq]
      constructor
      · rintro rfl
        exact ⟨problem, parse_eq_error_iff.mp hparse, rfl⟩
      · rintro ⟨other, hwrong, rfl⟩
        rw [← parse_eq_error_iff, hparse] at hwrong
        cases hwrong
        rfl
    · intro payload
      rw [hphase, hrefused]
      exact (nomatch ·)

/-- The sign belongs to the delay only, and white space may stand inside a number. -/
theorem parser_goes_by_grammar_delayed :
    "sleep:+7;1 0*2" ≠ "panic" ∧ "sleep: 7;1" ≠ "panic" ∧
      Written "sleep:+7;1 0*2".toList ⟨7, [⟨.add, 10⟩, ⟨.mul, 2⟩]⟩ ∧
      ∀ expr, ¬ Written "sleep: 7;1".toList expr := by
  have hgood : "sleep:+7;1 0*2" ≠ "panic" := by decide
  have hbad : "sleep: 7;1" ≠ "panic" := by decide
  refine ⟨hgood, hbad, ?_, ?_⟩
  · exact ((parser_goes_by_grammar false false hgood).1.accepted _).mp rfl
  · intro expr hexpr
    have hvalue := ((parser_goes_by_grammar false false hbad).1.accepted expr).mpr hexpr
    cases hvalue

end CompileWatch.Arith
