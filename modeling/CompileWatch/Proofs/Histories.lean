import CompileWatch.Service.History
import Mathlib.Data.List.Induction

/-!
# Statements about whole histories

Which states can be reached, what holds along a history, and what is seen of it. An observer looks
at every action of a history, in the state in which it happens, and writes down one thing or
nothing. The notes are what statements about whole histories speak of: what one attempt did, or
when something came into the slot.
-/
namespace CompileWatch.Service

variable {α β : Type} {s t : Service α} {look : Service α → Action α → Option β}
  {action : Action α} {actions : List (Action α)} {sent : List Stamped}

/-! ## Reachable states -/

/-- What holds at the beginning and is kept by every action in a state reached from there holds in
every state reached. -/
theorem Reaches.induct_reached {motive : Service α → Prop}
    (step : ∀ {u v : Service α} {a : Action α} {sent : List Stamped},
      s.Reaches u → motive u → u.step? a = some (v, sent) → motive v)
    (h : s.Reaches t) (hs : motive s) : motive t :=
  (h.induct (motive := fun u => s.Reaches u ∧ motive u)
    (fun hu hstep => ⟨hu.1.trans (.of_step hstep), step hu.1 hu.2 hstep⟩) ⟨.refl s, hs⟩).2

/-- Can the service come into this state at all? -/
def Reachable (s : Service α) : Prop :=
  ∃ config sink text, (ofConfig config sink text).Reaches s

theorem Reachable.reaches (h : s.Reachable) (hst : s.Reaches t) : t.Reachable := by
  obtain ⟨config, sink, text, hs⟩ := h
  exact ⟨config, sink, text, hs.trans hst⟩

theorem Reachable.step (h : s.Reachable) (hstep : s.step? action = some (t, sent)) :
    t.Reachable :=
  h.reaches (.of_step hstep)

/-! ## Along a history -/

/-- The notes that an observer takes of a history, in order. -/
def observe (look : Service α → Action α → Option β) : Service α → List (Action α) → List β
  | _, [] => []
  | s, a :: rest =>
    match s.step? a with
    | none => []
    | some (next, _) => (look s a).toList ++ next.observe look rest

theorem observe_cons {a : Action α} {rest : List (Action α)}
    (h : s.step? a = some (t, sent)) :
    s.observe look (a :: rest) = (look s a).toList ++ t.observe look rest := by
  simp [observe, h]

/-- A history that can happen begins with an action that can happen. -/
theorem steps?_cons_eq_some {a : Action α} {rest : List (Action α)}
    (h : s.steps? (a :: rest) = some (t, sent)) :
    ∃ u first more, s.step? a = some (u, first) ∧ u.steps? rest = some (t, more) := by
  rw [steps?_cons] at h
  obtain ⟨one, hone, hrest⟩ := Option.bind_eq_some_iff.1 h
  obtain ⟨last, hlast, heq⟩ := Option.map_eq_some_iff.1 hrest
  cases heq
  exact ⟨one.1, one.2, last.2, hone, hlast⟩

/-- What a history sends is what its first action sends, and then what the rest sends. -/
theorem sent_of_steps?_cons {u v : Service α} {a : Action α} {rest : List (Action α)}
    {first more : List Stamped} (h : s.steps? (a :: rest) = some (t, sent))
    (hone : s.step? a = some (u, first)) (hrest : u.steps? rest = some (v, more)) :
    sent = first ++ more := by
  simp only [steps?_cons, hone, Option.bind_some, hrest, Option.map_some] at h
  exact (Prod.mk.inj (Option.some.inj h)).2.symm

/-- Two histories, the second of which begins where the first one ends, make one. -/
theorem steps?_append_eq_some {u : Service α} {first second : List (Action α)}
    {more : List Stamped} (hfirst : s.steps? first = some (t, sent))
    (hsecond : t.steps? second = some (u, more)) :
    s.steps? (first ++ second) = some (u, sent ++ more) := by
  simp [steps?_append, hfirst, hsecond]

/-- A history in two parts goes through a state in between. -/
theorem exists_of_steps?_append {first second : List (Action α)}
    (h : s.steps? (first ++ second) = some (t, sent)) :
    ∃ u told more, s.steps? first = some (u, told) ∧ u.steps? second = some (t, more) := by
  rw [steps?_append] at h
  obtain ⟨mid, hfirst, hrest⟩ := Option.bind_eq_some_iff.1 h
  obtain ⟨last, hsecond, heq⟩ := Option.map_eq_some_iff.1 hrest
  cases heq
  exact ⟨mid.1, mid.2, last.2, hfirst, hsecond⟩

/-- What holds of the empty history, and is kept when a history goes on by one action, holds of
every history. -/
theorem steps?_induct {motive : List (Action α) → Service α → List Stamped → Prop}
    (snoc : ∀ {first : List (Action α)} {u v : Service α} {a : Action α} {told more : List Stamped},
      s.steps? first = some (u, told) → u.step? a = some (v, more) → motive first u told →
        motive (first ++ [a]) v (told ++ more))
    (nil : motive [] s []) (h : s.steps? actions = some (t, sent)) : motive actions t sent := by
  induction actions using List.reverseRecOn generalizing t sent with
  | nil => cases h; exact nil
  | append_singleton first a ih =>
    obtain ⟨u, told, more, hfirst, hlast⟩ := exists_of_steps?_append h
    obtain ⟨v, one, none, hone, hnone⟩ := steps?_cons_eq_some hlast
    have hsent := sent_of_steps?_cons hlast hone hnone
    cases hnone
    rw [steps?_append_eq_some hfirst hlast] at h
    cases h
    rw [hsent, List.append_nil]
    exact snoc hfirst hone (ih hfirst)

/-- Does the history `actions` come to `action` in the state `t`, when `first` has happened and
`sent` has been sent? -/
def Meets (s : Service α) (actions first : List (Action α)) (action : Action α) (t : Service α)
    (sent : List Stamped) : Prop :=
  first ++ [action] <+: actions ∧ s.steps? first = some (t, sent)

/-- What a history has come to stays so when it goes on. -/
theorem Meets.append {first : List (Action α)} (h : s.Meets actions first action t sent)
    (more : List (Action α)) : s.Meets (actions ++ more) first action t sent :=
  ⟨h.1.trans (List.prefix_append actions more), h.2⟩

/-- A history that goes on by one action comes to that action. -/
theorem meets_append (h : s.steps? actions = some (t, sent)) (action : Action α) :
    s.Meets (actions ++ [action]) actions action t sent :=
  ⟨List.prefix_refl _, h⟩

/-- Does every action of a history meet a condition, in the state in which it happens? -/
def Along (P : Service α → Action α → Prop) : Service α → List (Action α) → Prop
  | _, [] => True
  | s, a :: rest => P s a ∧ ∀ t sent, s.step? a = some (t, sent) → t.Along P rest

theorem along_cons {P : Service α → Action α → Prop} {a : Action α} {rest : List (Action α)}
    (hP : P s a) (hone : s.step? a = some (t, sent)) (hrest : t.Along P rest) :
    s.Along P (a :: rest) := by
  refine ⟨hP, fun u told hu => ?_⟩
  rw [hone] at hu
  cases hu
  exact hrest

/-- What holds of the actions of a history in every state holds along it. -/
theorem along_of_forall {P : Service α → Action α → Prop} :
    ∀ {actions : List (Action α)} {s : Service α}, (∀ a ∈ actions, ∀ u, P u a) →
      s.Along P actions := by
  intro actions
  induction actions with
  | nil =>
    intro s _
    exact True.intro
  | cons a rest ih =>
    intro s h
    exact ⟨h a List.mem_cons_self s, fun t _ _ => ih fun b hb => h b (List.mem_cons_of_mem a hb)⟩

/-- What holds of all notes of an observer who notes something at every action of a history that
can happen holds along it. -/
theorem along_of_observe (note : Service α → Action α → β) {Q : β → Prop}
    (hsteps : s.steps? actions = some (t, sent))
    (h : ∀ b ∈ s.observe (fun u a => some (note u a)) actions, Q b) :
    s.Along (fun u a => Q (note u a)) actions := by
  induction actions generalizing s sent with
  | nil => exact True.intro
  | cons a rest ih =>
    obtain ⟨u, first, more, hone, hrest⟩ := steps?_cons_eq_some hsteps
    rw [observe_cons hone] at h
    exact along_cons (h _ (List.mem_append_left _ (Option.mem_toList.2 rfl))) hone
      (ih hrest fun b hb => h b (List.mem_append_right _ hb))

/-- The notes of a history in two parts. -/
theorem observe_append {first second : List (Action α)} (h : s.steps? first = some (t, sent)) :
    s.observe look (first ++ second) = s.observe look first ++ t.observe look second := by
  induction first generalizing s sent with
  | nil => cases h; rfl
  | cons a rest ih =>
    obtain ⟨u, told, more, hone, hrest⟩ := steps?_cons_eq_some h
    rw [List.cons_append, observe_cons hone, observe_cons hone, ih hrest, List.append_assoc]

/-- The notes of a history that goes on by one action. -/
theorem observe_snoc {u : Service α} {a : Action α} {more : List Stamped}
    (h : s.steps? actions = some (t, sent)) (hone : t.step? a = some (u, more)) :
    s.observe look (actions ++ [a]) = s.observe look actions ++ (look t a).toList := by
  rw [observe_append h, observe_cons hone]
  simp [observe]

/-- Every note was taken in some state that the history goes through. -/
theorem exists_of_mem_observe {note : β} (h : note ∈ s.observe look actions) :
    ∃ first a second u told, actions = first ++ a :: second ∧
      s.steps? first = some (u, told) ∧ look u a = some note := by
  induction actions generalizing s with
  | nil => cases h
  | cons a rest ih =>
    cases hone : s.step? a with
    | none => simp [observe, hone] at h
    | some one =>
      obtain ⟨u, told⟩ := one
      rw [observe_cons hone, List.mem_append, Option.mem_toList] at h
      rcases h with hnow | hlater
      · exact ⟨[], a, rest, s, [], rfl, rfl, hnow⟩
      · obtain ⟨first, b, second, v, more, rfl, hfirst, hlook⟩ := ih hlater
        exact ⟨a :: first, b, second, v, told ++ more, rfl, by simp [steps?_cons, hone, hfirst],
          hlook⟩

/-- What holds along a history holds along the first part of it. -/
theorem Along.of_append {P : Service α → Action α → Prop} {first second : List (Action α)}
    (h : s.Along P (first ++ second)) : s.Along P first := by
  induction first generalizing s with
  | nil => exact True.intro
  | cons a rest ih => exact ⟨h.1, fun t sent hone => ih (h.2 t sent hone)⟩

/-- What holds along a history holds of the action that it ends with. -/
theorem Along.of_concat {P : Service α → Action α → Prop} {first : List (Action α)}
    (h : s.Along P (first ++ [action])) (hfirst : s.steps? first = some (t, sent)) : P t action := by
  induction first generalizing s sent with
  | nil =>
    cases hfirst
    exact h.1
  | cons a rest ih =>
    obtain ⟨u, told, more, hone, hrest⟩ := steps?_cons_eq_some hfirst
    exact ih (h.2 u told hone) hrest

/-- What holds along both parts of a history holds along the whole. -/
theorem Along.append {P : Service α → Action α → Prop} {first second : List (Action α)}
    (hfirst : s.Along P first) (hsteps : s.steps? first = some (t, sent))
    (hsecond : t.Along P second) : s.Along P (first ++ second) := by
  induction first generalizing s sent with
  | nil => cases hsteps; exact hsecond
  | cons a rest ih =>
    obtain ⟨u, told, more, hone, hrest⟩ := steps?_cons_eq_some hsteps
    exact along_cons hfirst.1 hone (ih (hfirst.2 u told hone) hrest)

/-- What holds at the beginning without notes, and is kept by every action that meets a condition,
with the note taken of it, holds at the end with all notes. -/
theorem Along.observe_induct {P : Service α → Action α → Prop} {motive : Service α → List β → Prop}
    (step : ∀ {u v : Service α} {a : Action α} {told : List Stamped} {seen : List β},
      s.Reaches u → v.Reaches t → P u a → u.step? a = some (v, told) → motive u seen →
        motive v (seen ++ (look u a).toList))
    (hall : s.Along P actions) (h : s.steps? actions = some (t, sent)) (hs : motive s []) :
    motive t (s.observe look actions) := by
  -- the induction is on the rest of the history, with the notes taken so far
  have run : ∀ (rest : List (Action α)) (u : Service α) (told : List Stamped) (seen : List β),
      s.Reaches u → u.Along P rest → u.steps? rest = some (t, told) → motive u seen →
        motive t (seen ++ u.observe look rest) := by
    intro rest
    induction rest with
    | nil =>
      intro u told seen _ _ hrest hu
      cases hrest
      simpa [observe] using hu
    | cons a rest ih =>
      intro u told seen hsu hu hrest hmotive
      obtain ⟨v, first, more, hone, hlast⟩ := steps?_cons_eq_some hrest
      have hv := step hsu ⟨rest, more, hlast⟩ hu.1 hone hmotive
      rw [observe_cons hone, ← List.append_assoc]
      exact ih v more _ (hsu.trans (.of_step hone)) (hu.2 v first hone) hlast hv
  exact run actions s sent [] (.refl s) hall h hs

/-- What holds at the beginning without notes, and is kept by every action with the note taken of
it, holds at the end with all notes. -/
theorem observe_induct {motive : Service α → List β → Prop}
    (step : ∀ {u v : Service α} {a : Action α} {told : List Stamped} {seen : List β},
      s.Reaches u → v.Reaches t → u.step? a = some (v, told) → motive u seen →
        motive v (seen ++ (look u a).toList))
    (h : s.steps? actions = some (t, sent)) (hs : motive s []) :
    motive t (s.observe look actions) :=
  Along.observe_induct (P := fun _ _ => True) (fun hsu hvt _ hone hu => step hsu hvt hone hu)
    (along_of_forall fun _ _ _ => True.intro) h hs

/-- What holds at the beginning, and is kept by every action that meets a condition, holds at the
end of a history along which the condition is met. -/
theorem Along.invariant {P : Service α → Action α → Prop} {motive : Service α → Prop}
    (step : ∀ {u v : Service α} {a : Action α} {told : List Stamped},
      s.Reaches u → P u a → u.step? a = some (v, told) → motive u → motive v)
    (hall : s.Along P actions) (h : s.steps? actions = some (t, sent)) (hs : motive s) :
    motive t := by
  -- nobody takes notes
  have nobody : Service α → Action α → Option Unit := fun _ _ => none
  exact @Along.observe_induct α Unit s t nobody actions sent P (fun u _ => motive u)
    (fun hsu _ hP hone hu => step hsu hP hone hu) hall h hs

end CompileWatch.Service
