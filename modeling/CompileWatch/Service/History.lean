import CompileWatch.Service.Step

/-!
# Histories of the service

Histories can be put together and taken apart. A state reaches another if some history leads from
the one to the other; this is the relation under which every way of scheduling the service falls.
-/
namespace CompileWatch.Service

variable {α : Type}

@[simp] theorem steps?_nil (s : Service α) : s.steps? [] = some (s, []) := rfl

theorem steps?_cons (s : Service α) (a : Action α) (rest : List (Action α)) :
    s.steps? (a :: rest) = (s.step? a).bind fun (next, sent) =>
      (next.steps? rest).map fun (last, more) => (last, sent ++ more) := by
  cases h : s.step? a <;> simp [steps?, h]

/-- A history in two parts sends the events of the first part and then those of the second. -/
theorem steps?_append (s : Service α) (first second : List (Action α)) :
    s.steps? (first ++ second) = (s.steps? first).bind fun (mid, sent) =>
      (mid.steps? second).map fun (last, more) => (last, sent ++ more) := by
  induction first generalizing s with
  | nil =>
    cases h : s.steps? second <;> simp [h]
  | cons a rest ih =>
    rw [List.cons_append, steps?_cons, steps?_cons]
    cases ha : s.step? a with
    | none => rfl
    | some one =>
      simp only [Option.bind_some, ih]
      cases hr : one.1.steps? rest with
      | none => rfl
      | some mid =>
        cases hm : mid.1.steps? second with
        | none => simp [hm]
        | some last => simp [hm, List.append_assoc]

/-- Does some history lead from `s` to `t`? -/
def Reaches (s t : Service α) : Prop :=
  ∃ actions sent, s.steps? actions = some (t, sent)

theorem Reaches.refl (s : Service α) : s.Reaches s := ⟨[], [], rfl⟩

theorem Reaches.trans {s t u : Service α} (hst : s.Reaches t) (htu : t.Reaches u) :
    s.Reaches u := by
  obtain ⟨first, sent, hfirst⟩ := hst
  obtain ⟨second, more, hsecond⟩ := htu
  exact ⟨first ++ second, sent ++ more, by simp [steps?_append, hfirst, hsecond]⟩

theorem Reaches.of_step {s t : Service α} {a : Action α} {sent : List Stamped}
    (h : s.step? a = some (t, sent)) : s.Reaches t :=
  ⟨[a], sent, by simp [steps?_cons, h]⟩

/-- What holds at the beginning and is kept by every action holds in every state reached. -/
theorem Reaches.induct {motive : Service α → Prop}
    (step : ∀ {s t : Service α} {a : Action α} {sent : List Stamped},
      motive s → s.step? a = some (t, sent) → motive t)
    {s t : Service α} (h : s.Reaches t) (hs : motive s) : motive t := by
  obtain ⟨actions, sent, hsteps⟩ := h
  induction actions generalizing s sent with
  | nil => cases hsteps; exact hs
  | cons a rest ih =>
    rw [steps?_cons] at hsteps
    obtain ⟨one, hone, hrest⟩ := Option.bind_eq_some_iff.1 hsteps
    obtain ⟨last, hlast, heq⟩ := Option.map_eq_some_iff.1 hrest
    cases heq
    exact ih (step hs hone) last.2 hlast

end CompileWatch.Service
