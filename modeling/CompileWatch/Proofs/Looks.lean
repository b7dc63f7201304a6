import CompileWatch.Proofs.Rounds

/-!
# What one look leaves over

A run that waits for its attempts looks at them and takes note of their ends, but one look takes
note of so many ends only. What is outstanding after it are the attempts that are not finished, and
the ends for which there was no room.
-/
namespace CompileWatch.Service

variable {α : Type} {s : Service α} {id : Nat}

/-- The attempts of a run that have not come to an end. -/
def unfinished (s : Service α) (id : Nat) : List (Attempt α) :=
  s.attempts.filter fun a => a.run = id && !a.isFinished

/-- The attempts of a run that have come to an end without the run having taken note of it. -/
def unnoted (s : Service α) (id : Nat) : List (Attempt α) :=
  s.attempts.filter fun a => a.run = id && a.isUnnoted

/-- The number of attempts of a run that one more look at them leaves over: those that are not
finished, and those that are, but are too many for one look. -/
def leftOver (s : Service α) (id : Nat) : Nat :=
  (s.unfinished id).length + ((s.unnoted id).length - Line.turnLength)

/-- What a run comes to if it takes no more than one look at its attempts. -/
def resultOfLook (s : Service α) (id : Nat) : StopResult :=
  if s.leftOver id = 0 then .ok () else .error (.graceExceeded s.config.grace (s.leftOver id))

theorem unfinished_noteUpTo (id n : Nat) (list : List (Attempt α)) :
    ((noteUpTo id n list).filter fun a => a.run = id && !a.isFinished) =
      list.filter fun a => a.run = id && !a.isFinished := by
  induction list generalizing n with
  | nil => cases n <;> rfl
  | cons a rest ih =>
    cases n with
    | zero => rfl
    | succ n =>
      unfold noteUpTo
      split
      · next hnews =>
        have hfinished : a.isFinished = true := by
          simp only [Bool.and_eq_true, Attempt.isUnnoted] at hnews
          exact hnews.2.1
        have hnoted : ({ a with noted := true } : Attempt α).isFinished = true := hfinished
        simp [hfinished, hnoted, ih n]
      · simp [List.filter_cons, ih (n + 1)]

/-- A look takes note of the first ends that were not noted. -/
theorem unnoted_noteUpTo (id n : Nat) (list : List (Attempt α)) :
    ((noteUpTo id n list).filter fun a => a.run = id && a.isUnnoted) =
      (list.filter fun a => a.run = id && a.isUnnoted).drop n := by
  induction list generalizing n with
  | nil => cases n <;> rfl
  | cons a rest ih =>
    cases n with
    | zero => rfl
    | succ n =>
      unfold noteUpTo
      split
      · next hnews =>
        have hnoted : ({ a with noted := true } : Attempt α).isUnnoted = false := by
          simp [Attempt.isUnnoted]
        simp only [List.filter_cons, hnews, hnoted, Bool.and_false, if_true, List.drop_succ_cons,
          ← ih n, Bool.false_eq_true, if_false]
      · next hnews => simp only [List.filter_cons, hnews, if_false, ih (n + 1), Bool.false_eq_true]

theorem isFinished_of_mem_noteUpTo {list : List (Attempt α)}
    (h : ∀ a ∈ list, a.noted = true → a.isFinished = true) (id n : Nat) :
    ∀ a ∈ noteUpTo id n list, a.noted = true → a.isFinished = true := by
  induction list generalizing n with
  | nil => cases n <;> exact h
  | cons b rest ih =>
    obtain ⟨hb, hrest⟩ := List.forall_mem_cons.1 h
    cases n with
    | zero => exact h
    | succ n =>
      unfold noteUpTo
      split
      · next hnews =>
        simp only [Bool.and_eq_true, Attempt.isUnnoted] at hnews
        exact List.forall_mem_cons.2 ⟨fun _ => hnews.2.1, ih hrest n⟩
      · exact List.forall_mem_cons.2 ⟨hb, ih hrest (n + 1)⟩

/-- The attempts whose ends are not noted are those that are not finished, and those that are. -/
theorem length_filter_not_noted {list : List (Attempt α)}
    (h : ∀ a ∈ list, a.noted = true → a.isFinished = true) (id : Nat) :
    (list.filter fun a => a.run = id && !a.noted).length =
      (list.filter fun a => a.run = id && !a.isFinished).length +
        (list.filter fun a => a.run = id && a.isUnnoted).length := by
  induction list with
  | nil => rfl
  | cons a rest ih =>
    obtain ⟨ha, hrest⟩ := List.forall_mem_cons.1 h
    have hsum := ih hrest
    by_cases hrun : a.run = id
    · cases hnoted : a.noted with
      | true => simp [hrun, hnoted, ha hnoted, Attempt.isUnnoted, hsum]
      | false =>
        cases hfinished : a.isFinished with
        | true => simp [hrun, hnoted, hfinished, Attempt.isUnnoted, hsum, Nat.add_assoc]
        | false => simp [hrun, hnoted, hfinished, Attempt.isUnnoted, hsum, Nat.add_right_comm]
    · simpa [hrun] using hsum

theorem attempts_looked (s : Service α) (id n : Nat) :
    (s.looked id n).attempts = if s.hasNews id then noteUpTo id n s.attempts else s.attempts := by
  unfold looked note
  split <;> rfl

theorem hasNews_eq_false_iff : s.hasNews id = false ↔ s.unnoted id = [] := by
  simp [hasNews, unnoted, List.filter_eq_nil_iff]

@[simp] theorem unfinished_looked (s : Service α) (id n : Nat) :
    (s.looked id n).unfinished id = s.unfinished id := by
  unfold unfinished
  rw [attempts_looked]
  split
  · exact unfinished_noteUpTo id n s.attempts
  · rfl

@[simp] theorem unnoted_looked (s : Service α) (id n : Nat) :
    (s.looked id n).unnoted id = (s.unnoted id).drop n := by
  cases hnews : s.hasNews id with
  | true =>
    unfold unnoted
    rw [attempts_looked, if_pos hnews]
    exact unnoted_noteUpTo id n s.attempts
  | false =>
    have hnone := hasNews_eq_false_iff.1 hnews
    have hsame : (s.looked id n).attempts = s.attempts := by rw [attempts_looked, hnews]; rfl
    rw [hnone, List.drop_nil, ← hnone, unnoted, hsame]
    rfl

/-- **The count.** What is outstanding after one more look is what it leaves over. -/
theorem Reachable.length_outstanding_looked (h : s.Reachable) (id : Nat) :
    ((s.looked id Line.turnLength).outstanding id).length = s.leftOver id := by
  have hnoted : ∀ a ∈ s.attempts, a.noted = true → a.isFinished = true := fun a ha =>
    h.tended.noted (attempt?_of_mem h.nodup_generations ha)
  have hlooked : ∀ a ∈ (s.looked id Line.turnLength).attempts,
      a.noted = true → a.isFinished = true := by
    rw [attempts_looked]
    split
    · exact isFinished_of_mem_noteUpTo hnoted id _
    · exact hnoted
  have hsum := length_filter_not_noted hlooked id
  have hunfinished := s.unfinished_looked id Line.turnLength
  have hunnoted := s.unnoted_looked id Line.turnLength
  unfold unfinished at hunfinished
  unfold unnoted at hunnoted
  rw [hunfinished, hunnoted, List.length_drop] at hsum
  exact hsum

theorem Reachable.outstanding_looked_eq_nil_iff (h : s.Reachable) :
    (s.looked id Line.turnLength).outstanding id = [] ↔ s.leftOver id = 0 := by
  rw [← List.length_eq_zero_iff, h.length_outstanding_looked]

/-- As long as one look is enough for all ends that are not noted, the count is right. -/
theorem leftOver_of_le (h : (s.unnoted id).length ≤ Line.turnLength) :
    s.leftOver id = (s.unfinished id).length := by
  rw [leftOver, Nat.sub_eq_zero_of_le h, Nat.add_zero]

theorem resultOfLook_eq_ok_iff : s.resultOfLook id = .ok () ↔ s.leftOver id = 0 := by
  unfold resultOfLook
  split <;> simp_all

theorem Reachable.unfinished_eq_nil_iff (h : s.Reachable) :
    s.unfinished id = [] ↔
      ∀ g a, s.attempt? g = some a → a.run = id → a.isFinished = true := by
  unfold unfinished
  rw [List.filter_eq_nil_iff]
  constructor
  · intro hnone g a ha hrun
    simpa [hrun] using hnone a (mem_of_attempt? ha)
  · intro hall a ha
    have hfound := attempt?_of_mem h.nodup_generations ha
    by_cases hrun : a.run = id
    · simp [hall _ a hfound hrun]
    · simp [hrun]

end CompileWatch.Service
