/-!
# Step by step

What is true of all that goes on by steps, whatever it is that takes them: along a list of actions,
as long as each can happen in its turn, or a limited number of times, as long as there is a step to
take. How often is enough depends on how much is left to do.
-/
namespace CompileWatch

variable {σ β : Type}

/-- How many actions of a list are of a sort, counted action by action. -/
theorem countP_cons_toNat (q : β → Bool) (a : β) (rest : List β) :
    (a :: rest).countP q = (q a).toNat + rest.countP q := by
  cases h : q a <;> simp [h, Nat.add_comm]

/-- Along a list of actions, `run` takes the step of each in its turn, and fails at the first that
cannot happen. -/
structure Performs (step? : σ → β → Option σ) (run : σ → List β → Option σ) : Prop where
  nil : ∀ s, run s [] = some s
  cons : ∀ s a rest, run s (a :: rest) = (step? s a).bind (run · rest)

namespace Performs

variable {step? : σ → β → Option σ} {run : σ → List β → Option σ} {s t : σ} {actions : List β}

/-- A list of actions in two parts. -/
theorem append (h : Performs step? run) (s : σ) (first second : List β) :
    run s (first ++ second) = (run s first).bind (run · second) := by
  induction first generalizing s with
  | nil => rw [List.nil_append, h.nil, Option.bind_some]
  | cons a rest ih =>
    rw [List.cons_append, h.cons, h.cons, Option.bind_assoc]
    congr 1
    funext next
    exact ih next

/-- What holds at the beginning and is kept by every action holds at the end. -/
theorem invariant (h : Performs step? run) {motive : σ → Prop}
    (keep : ∀ {s t : σ} {a : β}, motive s → step? s a = some t → motive t)
    (hrun : run s actions = some t) (hs : motive s) : motive t := by
  induction actions generalizing s with
  | nil =>
    rw [h.nil] at hrun
    exact Option.some.inj hrun ▸ hs
  | cons a rest ih =>
    rw [h.cons] at hrun
    obtain ⟨next, hnext, hrest⟩ := Option.bind_eq_some_iff.1 hrun
    exact ih hrest (keep hs hnext)

end Performs

/-- `loop` takes one step after the other, at most so many, and stops early if there is none to
take. -/
structure Loops (step? : σ → Option σ) (loop : Nat → σ → σ) : Prop where
  zero : ∀ s, loop 0 s = s
  succ : ∀ n s, loop (n + 1) s = (step? s).elim s (loop n)

namespace Loops

variable {step? : σ → Option σ} {loop : Nat → σ → σ} {s : σ} {m n : Nat}

theorem of_none (h : Loops step? loop) (hs : step? s = none) (n : Nat) : loop n s = s := by
  cases n with
  | zero => exact h.zero s
  | succ n => rw [h.succ, hs, Option.elim_none]

/-- Once there is no step left to take, it makes no difference how many more there might be. -/
theorem eq_of_rest (h : Loops step? loop) (hrest : step? (loop n s) = none) (hle : n ≤ m) :
    loop m s = loop n s := by
  induction n generalizing s m with
  | zero =>
    rw [h.zero] at hrest ⊢
    exact h.of_none hrest m
  | succ n ih =>
    obtain ⟨m, rfl⟩ := Nat.exists_eq_add_of_le' hle
    rw [← Nat.add_assoc, h.succ, h.succ]
    rw [h.succ] at hrest
    cases hs : step? s with
    | none => rfl
    | some t =>
      rw [hs] at hrest
      exact ih hrest (Nat.le_add_left n m)

/-- If every step leaves less to do, and there is no more to do than there may be steps, then no
step is left to take at the end. -/
theorem rest (h : Loops step? loop) (left : σ → Nat)
    (hless : ∀ {s t : σ}, step? s = some t → left t < left s) (hle : left s ≤ n) :
    step? (loop n s) = none := by
  induction n generalizing s with
  | zero =>
    rw [h.zero]
    refine Option.eq_none_iff_forall_ne_some.2 fun t ht => ?_
    exact Nat.not_lt_zero _ (Nat.lt_of_lt_of_le (hless ht) hle)
  | succ n ih =>
    rw [h.succ]
    cases hs : step? s with
    | none => exact hs
    | some t => exact ih (Nat.le_of_lt_succ (Nat.lt_of_lt_of_le (hless hs) hle))

/-- If there always is a step to take, and it leads to where there is one again, then no number of
steps is enough. -/
theorem ne_none (h : Loops step? loop) {motive : σ → Prop}
    (next : ∀ {s : σ}, motive s → ∃ t, step? s = some t ∧ motive t) (hs : motive s) (n : Nat) :
    step? (loop n s) ≠ none := by
  induction n generalizing s with
  | zero =>
    obtain ⟨t, ht, -⟩ := next hs
    rw [h.zero, ht]
    exact Option.some_ne_none t
  | succ n ih =>
    obtain ⟨t, ht, hmotive⟩ := next hs
    rw [h.succ, ht]
    exact ih hmotive

end Loops

end CompileWatch
