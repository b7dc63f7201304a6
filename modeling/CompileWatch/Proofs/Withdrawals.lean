import CompileWatch.Proofs.Rounds

/-!
# Who withdraws an attempt

An attempt is withdrawn by cancelling its token and by calling it off. Only the run that started it
does so, and a run that waits for its attempts leaves them alone until its grace time is over. So
the last attempt of such a run is withdrawn by nobody but its own compiler, and when it has come to
an end while no newer attempt was started, the slot holds what it has made.
-/
namespace CompileWatch

namespace Run

/-- The attempt that a run withdraws with its next step. -/
def withdraws? (r : Run) : Option Generation :=
  match r.stage with
  | .cancelling _ g | .callingOff _ g => some g
  | .overdue _ | .givingUp _ => r.previous
  | _ => none

/-- Does the run remember the attempt as the last one, or is it about to withdraw it? -/
def Grips (r : Run) (g : Generation) : Prop := r.previous = some g ∨ r.withdraws? = some g

/-- The last attempt of a run that has not begun to withdraw it. -/
def kept? (r : Run) : Option Generation :=
  match r.stage with
  | .waiting _ | .noticed _ | .looking _ | .draining _ | .overdue _ | .closing (.ok _)
  | .ended (.ok _) => r.previous
  | _ => none

/-- A number that no attempt of the run lies above. -/
def highest? (r : Run) : Option Generation :=
  match r.stage with
  | .waiting _ | .noticed _ | .looking _ | .draining _ | .overdue _ | .closing (.ok _)
  | .ended (.ok _) => some (r.previous.getD 0)
  | .raising _ g | .announcing _ g | .launching _ g => some g
  | _ => none

/-- Does the run wait for its attempts, or has it seen them all come to an end? -/
def isPatient (r : Run) : Bool :=
  match r.stage with
  | .draining _ | .closing (.ok _) | .ended (.ok _) => true
  | _ => false

variable {r : Run} {g : Generation}

theorem previous_of_kept? (h : r.kept? = some g) : r.previous = some g := by
  unfold kept? at h
  split at h <;> simp_all

theorem kept?_of_isPatient (h : r.isPatient = true) : r.kept? = r.previous := by
  unfold isPatient at h
  split at h <;> simp_all [kept?]

theorem highest?_of_isPatient (h : r.isPatient = true) :
    r.highest? = some (r.previous.getD 0) := by
  unfold isPatient at h
  split at h <;> simp_all [highest?]

theorem withdraws?_of_isPatient (h : r.isPatient = true) : r.withdraws? = none := by
  unfold isPatient at h
  split at h <;> simp_all [withdraws?]

end Run

namespace Service

variable {α : Type} {s t : Service α} {action : Action α} {actions : List (Action α)}
  {sent : List Stamped} {id : Nat} {r r' : Run} {g : Generation} {a a' : Attempt α}

/-! ## What is done to one attempt -/

/-- The attempt is withdrawn as far as it was before. -/
def SameStanding (a a' : Attempt α) : Prop :=
  a'.cancelled = a.cancelled ∧ a'.calledOff = a.calledOff

theorem sameStanding_of_eq {found found' : Option (Attempt α)} (ha : found = some a)
    (ha' : found' = some a') (h : found' = found) : SameStanding a a' := by
  cases ha'.symm.trans (h.trans ha)
  exact ⟨rfl, rfl⟩

theorem sameStanding_looked {n : Nat} (ha : s.attempt? g = some a)
    (ha' : (s.looked id n).attempt? g = some a') : SameStanding a a' := by
  rcases s.attempt?_looked id n g with hsame | ⟨b, hb, -, hnoted⟩
  · exact sameStanding_of_eq ha ha' hsame
  · cases ha.symm.trans hb
    cases ha'.symm.trans hnoted
    exact ⟨rfl, rfl⟩

/-- A step of a run withdraws no attempt but the one that it is about to withdraw, unless the run
dies. -/
theorem RunStep.sameStanding (h : RunStep s r action r' t sent) (ha : s.attempt? g = some a)
    (ha' : t.attempt? g = some a') (hwithdraws : r.withdraws? ≠ some g)
    (hdead : r'.isDead = true → a.run ≠ r.id) : SameStanding a a' := by
  -- an update of another attempt
  have other {k : Generation} {f : Attempt α → Attempt α} (hk : r.withdraws? = some k)
      (hput : t.attempt? g = if g = k then (s.attempt? k).map f else s.attempt? g) :
      SameStanding a a' := by
    have hne : g ≠ k := fun heq => hwithdraws (heq ▸ hk)
    rw [if_neg hne] at hput
    exact sameStanding_of_eq ha ha' hput
  cases h
  case rest | drained | graceEnds | glance => exact sameStanding_looked ha ha'
  case die hs _ =>
    have hput := s.attempt?_callOffRun r.id g
    rw [ha, Option.map_some, if_neg (hdead rfl)] at hput
    exact sameStanding_of_eq ha ha' (hput.trans ha.symm)
  case cancel hs => exact other (by simp [Run.withdraws?, hs]) (s.attempt?_cancelAttempt _ g)
  case callOff hs => exact other (by simp [Run.withdraws?, hs]) (s.attempt?_callOff _ g)
  case cancelLast hs hprevious =>
    exact other (by simpa [Run.withdraws?, hs] using hprevious) (s.attempt?_cancelAttempt _ g)
  case callOffLast hs hprevious =>
    exact other (by simpa [Run.withdraws?, hs] using hprevious) (s.attempt?_callOff _ g)
  case launch text k hs =>
    have hold : (s.launched r.id text k).attempt? g = some a := by
      rw [attempt?_launched, ha, Option.some_or]
    exact sameStanding_looked hold ha'
  all_goals exact sameStanding_of_eq ha ha' rfl

/-- An attempt withdraws itself only by cancelling its own token. -/
theorem AttemptStep.sameStanding (h : AttemptStep s a action a' t sent)
    (hself : action ≠ .cancelItself a.generation) : SameStanding a a' := by
  cases h with
  | take _ => unfold taken; split <;> exact ⟨rfl, rfl⟩
  | cancelItself _ => exact absurd rfl hself
  | answer _ => exact ⟨rfl, rfl⟩
  | move hmove => cases Attempt.MoveStep.of_next? hmove <;> exact ⟨rfl, rfl⟩

/-- No attempt calls itself off. -/
theorem AttemptStep.calledOff (h : AttemptStep s a action a' t sent) :
    a'.calledOff = a.calledOff := by
  cases h with
  | take _ => unfold taken; split <;> rfl
  | cancelItself _ | answer _ => rfl
  | move hmove => cases Attempt.MoveStep.of_next? hmove <;> rfl

/-! ## What runs have to do with their attempts -/

/-- A run takes a step of its own, or it stays where it is, or it has just been started. -/
theorem Step.own_or_apart (h : Step s action t sent) (id : Nat) :
    (∃ r r', r.id = id ∧ s.run? id = some r ∧ t.run? id = some r' ∧
      RunStep s r action r' t sent) ∨
    runner? action ≠ some id ∧ ∀ r', t.run? id = some r' →
      (∃ r, s.run? id = some r ∧ r'.stage = r.stage ∧ r'.previous = r.previous) ∨
      s.run? id = none ∧ r' = { id, stage := .waiting s.nextPoll } := by
  by_cases hown : runner? action = some id
  · left
    cases h
    case run r r' hr h =>
      obtain rfl : r.id = id := Option.some.inj (h.runner.symm.trans hown)
      exact ⟨r, r', rfl, hr, by simp [h.run? hr], h⟩
    case attempt _ h => cases h <;> cases hown
    all_goals cases hown
  · refine .inr ⟨hown, fun r' hr' => ?_⟩
    rcases h.run? id with hsame | ⟨r, hr, htold⟩ | ⟨r, _, rfl, -, -, hrun⟩ | ⟨-, hnone, hnew⟩
    · exact .inl ⟨r', hsame.symm.trans hr', rfl, rfl⟩
    · cases hr'.symm.trans htold
      exact .inl ⟨r, hr, rfl, rfl⟩
    · exact absurd hrun.runner hown
    · exact .inr ⟨hnone, Option.some.inj (hr'.symm.trans hnew)⟩

/-- Only its own run launches an attempt of a run. -/
theorem Step.exists_before_of_apart (h : Step s action t sent) (hother : runner? action ≠ some id)
    (ha' : t.attempt? g = some a') (hrun : a'.run = id) :
    ∃ a, s.attempt? g = some a ∧ a.run = id ∧ Change s a a' := by
  rcases h.attempt? g with hrel | ⟨r, _, _, hown, -, -, -, hnew⟩
  · rw [ha'] at hrel
    obtain ⟨a, ha, hchange⟩ := exists_of_rel_some hrel
    exact ⟨a, ha, hchange.identity.2.1.symm.trans hrun, hchange⟩
  · cases ha'.symm.trans hnew
    exact absurd (hrun ▸ hown.runner) hother

/-- Out of its loop, a run launches no attempt any more. -/
theorem Step.exists_before (h : Step s action t sent) (hr : s.run? id = some r)
    (hleft : r.hasLeft = true) (ha' : t.attempt? g = some a') (hrun : a'.run = id) :
    ∃ a, s.attempt? g = some a ∧ a.run = id ∧ Change s a a' := by
  rcases h.own_or_apart id with ⟨r₁, r', rfl, hr₁, -, hown⟩ | ⟨hother, -⟩
  · cases hr.symm.trans hr₁
    rcases hown.attempt? g with hrel | ⟨text, hlaunch, -, -⟩
    · rw [ha'] at hrel
      obtain ⟨a, ha, htouch⟩ := exists_of_rel_some hrel
      exact ⟨a, ha, htouch.kept.2.1.symm.trans hrun, .touch htouch⟩
    · simp [Run.hasLeft, hlaunch] at hleft
  · exact h.exists_before_of_apart hother ha' hrun

/-- What holds of runs and of their attempts at all times, after the history `actions`. -/
structure Minded (actions : List (Action α)) (s : Service α) : Prop where
  /-- A run has to do with attempts of its own only. -/
  own {id : Nat} {r : Run} {g : Generation} : s.run? id = some r → r.Grips g →
    ∃ a, s.attempt? g = some a ∧ a.run = id
  /-- The last attempt of a run is withdrawn by nobody but itself before the run does so. -/
  kept {id : Nat} {r : Run} {g : Generation} {a : Attempt α} : s.run? id = some r →
    r.kept? = some g → s.attempt? g = some a →
    a.calledOff = false ∧ (a.cancelled = true → .cancelItself g ∈ actions)
  /-- It is the newest one of the run. -/
  newest {id : Nat} {r : Run} {g k : Generation} {a : Attempt α} : s.run? id = some r →
    r.highest? = some k → s.attempt? g = some a → a.run = id → g ≤ k

/-- In an action an attempt is not called off, and its token is cancelled only by itself. -/
def LeftAlone (action : Action α) (a a' : Attempt α) : Prop :=
  a'.calledOff = a.calledOff ∧
    (a'.cancelled = true → a.cancelled = true ∨ action = .cancelItself a.generation)

theorem SameStanding.leftAlone (h : SameStanding a a') (action : Action α) :
    LeftAlone action a a' :=
  ⟨h.2, fun hc => .inl (h.1.symm.trans hc)⟩

/-- An attempt is left alone by everyone but its own run, and by that too if the run neither
withdraws it nor dies. -/
theorem Step.leftAlone (h : Step s action t sent) (hs : Minded actions s)
    (ha : s.attempt? g = some a) (ha' : t.attempt? g = some a')
    (hrun : ∀ r r', r.id = a.run → s.run? r.id = some r → RunStep s r action r' t sent →
      r.withdraws? ≠ some g ∧ r'.isDead = false) : LeftAlone action a a' := by
  cases h with
  | @run r r' _ _ _ hr h =>
    by_cases hid : r.id = a.run
    · obtain ⟨hwithdraws, halive⟩ := hrun r r' hid hr h
      have hnot : r'.isDead = true → a.run ≠ r.id := fun hdead =>
        absurd (halive.symm.trans hdead) Bool.false_ne_true
      exact (h.sameStanding ha ha' hwithdraws hnot).leftAlone _
    · have hsame := h.sameStanding ha ha'
      refine (hsame (fun hwithdraws => hid ?_) fun _ heq => hid heq.symm).leftAlone _
      -- what a run withdraws is its own
      obtain ⟨b, hb, hown⟩ := hs.own hr (.inr hwithdraws)
      cases ha.symm.trans hb
      exact hown.symm
  | @attempt b b' _ _ _ hb h =>
    have hput := h.attempt? hb g
    by_cases hg : g = b.generation
    · subst hg
      cases ha.symm.trans hb
      rw [if_pos rfl] at hput
      cases ha'.symm.trans hput
      refine ⟨h.calledOff, fun hc => ?_⟩
      by_cases hself : action = .cancelItself a.generation
      · exact .inr hself
      · exact .inl ((h.sameStanding hself).1.symm.trans hc)
    · rw [if_neg hg] at hput
      exact (sameStanding_of_eq ha ha' hput).leftAlone _
  | _ => exact (sameStanding_of_eq ha ha' rfl).leftAlone _

/-- A run that launches an attempt makes a new one. -/
theorem RunStep.attempt?_of_launching (h : RunStep s r action r' t sent) (hs : Numbered s)
    (hr : s.run? r.id = some r) {text : String} (hstage : r.stage = .launching text g) :
    t.attempt? g = some { generation := g, run := r.id, source := text } := by
  have hunused : s.attempt? g = none := by
    have hpledge : s.pledge? r.id = some ⟨text, g, true⟩ := by
      simp [pledge?, hr, Run.pledge?, hstage]
    exact hs.pledge_unused hpledge
  rcases h.attempt? g with hrel | ⟨text', hstage', -, hnew⟩
  · rw [hunused] at hrel
    exact absurd (eq_none_of_rel hrel) (h.attempt?_ne_none hstage)
  · cases hstage.symm.trans hstage'
    exact hnew

theorem RunStep.grips (h : RunStep s r action r' t sent) (hg : r'.Grips g) :
    r.Grips g ∨ ∃ text, r.stage = .launching text g := by
  cases h
  all_goals simp_all [Run.Grips, Run.withdraws?]

theorem RunStep.kept? (h : RunStep s r action r' t sent) (hg : r'.kept? = some g) :
    r.kept? = some g ∧ r.withdraws? ≠ some g ∧ r'.isDead = false ∨
      ∃ text, r.stage = .launching text g := by
  cases h
  case announceEnd result hs =>
    cases result with
    | ok _ => simpa [Run.kept?, Run.withdraws?, Run.isDead, hs] using hg
    | error _ => cases hg
  all_goals simp_all [Run.kept?, Run.withdraws?, Run.isDead]

theorem RunStep.highest? (h : RunStep s r action r' t sent) {k : Generation}
    (hk : r'.highest? = some k) : r.highest? = some k ∨ k = t.generation := by
  cases h
  case number => exact .inr (Option.some.inj hk).symm
  case announceEnd result hs =>
    cases result with
    | ok _ => exact .inl (by simpa [Run.highest?, hs] using hk)
    | error _ => cases hk
  all_goals simp_all [Run.highest?]

theorem Minded.own_step (h : Minded actions s) (hs : Numbered s) (hstep : Step s action t sent)
    (hr' : t.run? id = some r') (hg : r'.Grips g) : ∃ a, t.attempt? g = some a ∧ a.run = id := by
  have later (hold : ∃ a, s.attempt? g = some a ∧ a.run = id) :
      ∃ a, t.attempt? g = some a ∧ a.run = id := by
    obtain ⟨a, ha, hrun⟩ := hold
    obtain ⟨a', ha', hchange⟩ := hstep.exists_attempt? ha
    exact ⟨a', ha', hchange.identity.2.1.trans hrun⟩
  rcases hstep.own_or_apart id with ⟨r, r₁, rfl, hr, hr₁, hown⟩ | ⟨-, hapart⟩
  · cases hr'.symm.trans hr₁
    rcases hown.grips hg with hold | ⟨text, hlaunch⟩
    · exact later (h.own hr hold)
    · exact ⟨_, hown.attempt?_of_launching hs hr hlaunch, rfl⟩
  · rcases hapart r' hr' with ⟨r, hr, hstage, hprevious⟩ | ⟨-, rfl⟩
    · exact later (h.own hr (by simpa [Run.Grips, Run.withdraws?, hstage, hprevious] using hg))
    · rcases hg with hg | hg <;> cases hg

theorem Minded.kept_step (h : Minded actions s) (hs : Numbered s) (hstep : Step s action t sent)
    (hr' : t.run? id = some r') (hg : r'.kept? = some g) (ha' : t.attempt? g = some a') :
    a'.calledOff = false ∧ (a'.cancelled = true → .cancelItself g ∈ actions ++ [action]) := by
  -- an attempt that was kept before and is left alone
  have still {r : Run} (hr : s.run? id = some r) (hold : r.kept? = some g)
      (hown : ∀ r₀ r₁, r₀.id = id → s.run? r₀.id = some r₀ → RunStep s r₀ action r₁ t sent →
        r₀.withdraws? ≠ some g ∧ r₁.isDead = false) :
      a'.calledOff = false ∧ (a'.cancelled = true → .cancelItself g ∈ actions ++ [action]) := by
    obtain ⟨a, ha, hrun⟩ := h.own hr (.inl (Run.previous_of_kept? hold))
    obtain ⟨hoff, hcancelled⟩ := h.kept hr hold ha
    have halone := hstep.leftAlone h ha ha' (hrun ▸ hown)
    refine ⟨halone.1.trans hoff, fun hc => ?_⟩
    rcases halone.2 hc with hbefore | rfl
    · exact List.mem_append_left _ (hcancelled hbefore)
    · rw [generation_of_attempt? ha]
      exact List.mem_append_right _ List.mem_cons_self
  rcases hstep.own_or_apart id with ⟨r, r₁, rfl, hr, hr₁, hown⟩ | ⟨hother, hapart⟩
  · cases hr'.symm.trans hr₁
    rcases hown.kept? hg with ⟨hold, hwithdraws, halive⟩ | ⟨text, hlaunch⟩
    · refine still hr hold fun r₀ r₁ hid hr₀ h₀ => ?_
      obtain rfl : r₀ = r := Option.some.inj (hr₀.symm.trans (hid ▸ hr))
      have hr₁' := h₀.run? hr₀ r₀.id
      rw [if_pos rfl, hr₁] at hr₁'
      cases hr₁'
      exact ⟨hwithdraws, halive⟩
    · cases ha'.symm.trans (hown.attempt?_of_launching hs hr hlaunch)
      exact ⟨rfl, nofun⟩
  · rcases hapart r' hr' with ⟨r, hr, hstage, hprevious⟩ | ⟨-, rfl⟩
    · refine still hr (by simpa [Run.kept?, hstage, hprevious] using hg) fun r₀ _ hid _ h₀ => ?_
      exact absurd (hid ▸ h₀.runner) hother
    · cases hg

theorem Minded.newest_step (h : Minded actions s) (hs : s.Reachable)
    (hstep : Step s action t sent) {k : Generation} (hr' : t.run? id = some r')
    (hk : r'.highest? = some k) (ha' : t.attempt? g = some a') (hrun : a'.run = id) : g ≤ k := by
  have hnumbered := hs.numbered.step hstep.numberStep
  rcases hstep.own_or_apart id with ⟨r, r₁, rfl, hr, hr₁, hown⟩ | ⟨hother, hapart⟩
  · cases hr'.symm.trans hr₁
    rcases hown.highest? hk with hold | rfl
    · rcases hown.attempt? g with hrel | ⟨text, hlaunch, -, -⟩
      · rw [ha'] at hrel
        obtain ⟨a, ha, htouch⟩ := exists_of_rel_some hrel
        exact h.newest hr hold ha (htouch.kept.2.1.symm.trans hrun)
      · rw [Run.highest?, hlaunch] at hold
        exact Nat.le_of_eq (Option.some.inj hold)
    · exact Nat.le_trans (hnumbered.attempt_le ha').2 hnumbered.floor_le
  · -- nobody else launches an attempt of the run
    obtain ⟨a, ha, hid, -⟩ := hstep.exists_before_of_apart hother ha' hrun
    rcases hapart r' hr' with ⟨r, hr, hstage, hprevious⟩ | ⟨hnone, -⟩
    · exact h.newest hr (by simpa [Run.highest?, hstage, hprevious] using hk) ha hid
    · obtain ⟨r, hr⟩ := hs.tended.owned ha
      cases hnone.symm.trans (hid ▸ hr)

theorem Minded.step (h : Minded actions s) (hs : s.Reachable) (hstep : Step s action t sent) :
    Minded (actions ++ [action]) t where
  own := h.own_step hs.numbered hstep
  kept := h.kept_step hs.numbered hstep
  newest := h.newest_step hs hstep

theorem minded_of_steps? {config : Config} {sink : MessageSink} {text : String}
    (hsteps : (ofConfig config sink text : Service α).steps? actions = some (s, sent)) :
    Minded actions s := by
  refine steps?_induct (motive := fun actions s _ => Minded actions s)
    (fun {first u v a told more} hfirst hone ih => ?_) ⟨?_, ?_, ?_⟩ hsteps
  · exact ih.step ⟨config, sink, text, first, told, hfirst⟩ (Step.of_step? hone)
  · exact fun hr => nomatch hr
  · exact fun hr => nomatch hr
  · exact fun hr => nomatch hr

theorem Reachable.exists_minded (h : s.Reachable) : ∃ actions, Minded actions s := by
  obtain ⟨config, sink, text, actions, sent, hsteps⟩ := h
  exact ⟨actions, minded_of_steps? hsteps⟩

/-! ## A run that waits -/

theorem RunStep.alive_of_isPatient (h : RunStep s r action r' t sent)
    (hpatient : r.isPatient = true) : r'.isDead = false := by
  cases h
  all_goals simp_all [Run.isPatient, Run.isDead]

/-- Out of its loop, a run does not become patient again. -/
theorem RunStep.isPatient (h : RunStep s r action r' t sent) (hleft : r.hasLeft = true)
    (hpatient : r'.isPatient = true) : r.isPatient = true := by
  cases h
  case announceEnd result hs =>
    cases result with
    | ok _ => simp [Run.isPatient, hs]
    | error _ => cases hpatient
  all_goals simp_all [Run.isPatient, Run.hasLeft]

theorem Step.isPatient (h : Step s action t sent) (hr : s.run? id = some r)
    (hleft : r.hasLeft = true) (hr' : t.run? id = some r') (hpatient : r'.isPatient = true) :
    r.isPatient = true := by
  rcases h.own_or_apart id with ⟨r₁, r₂, rfl, hr₁, hr₂, hown⟩ | ⟨-, hapart⟩
  · cases hr.symm.trans hr₁
    cases hr'.symm.trans hr₂
    exact hown.isPatient hleft hpatient
  · rcases hapart r' hr' with ⟨r₁, hr₁, hstage, -⟩ | ⟨hnone, -⟩
    · cases hr.symm.trans hr₁
      rw [Run.isPatient, ← hstage]
      exact hpatient
    · cases hr.symm.trans hnone

/-- A patient run leaves its attempts alone, and so does everyone else. -/
theorem Step.leftAlone_of_isPatient (h : Step s action t sent) (hs : Minded actions s)
    (hr : s.run? id = some r) (hpatient : r.isPatient = true) (ha : s.attempt? g = some a)
    (hrun : a.run = id) (ha' : t.attempt? g = some a') : LeftAlone action a a' := by
  refine h.leftAlone hs ha ha' fun r₀ r₁ hid hr₀ h₀ => ?_
  obtain rfl : r₀ = r := Option.some.inj (hr₀.symm.trans ((hid.trans hrun).symm ▸ hr))
  exact ⟨by simp [Run.withdraws?_of_isPatient hpatient], h₀.alive_of_isPatient hpatient⟩

/-! ## What becomes of an attempt that nobody withdraws -/

theorem Change.calledOff_of_finished (h : Change s a a')
    (ha : a.stage = .finished none → a.calledOff = true) (hs : a'.stage = .finished none) :
    a'.calledOff = true := by
  cases h with
  | touch h =>
    have hold := ha (h.kept.2.2.2.symm.trans hs)
    cases h with
    | callOff => rfl
    | _ => exact hold
  | take _ =>
    unfold taken at hs ⊢
    split at hs
    · next hoff =>
      rw [if_pos hoff]
      exact hoff
    · cases hs
  | @answer outcome _ =>
    rcases outcome with v | (ds | _) | payload <;> cases hs
  | move h => cases h <;> cases hs

/-- Only an attempt that was called off is over without a conclusion. -/
theorem Reachable.calledOff_of_finished (h : s.Reachable) (ha : s.attempt? g = some a)
    (hstage : a.stage = .finished none) : a.calledOff = true := by
  obtain ⟨config, sink, text, hs⟩ := h
  refine hs.induct (motive := fun u => ∀ a, u.attempt? g = some a → a.stage = .finished none →
      a.calledOff = true)
    (fun {u v action sent} ih hone a' ha' hstage' => ?_) (fun _ ha => nomatch ha) a ha hstage
  rcases (Step.of_step? hone).attempt? g with hrel | ⟨_, _, _, -, -, -, -, hnew⟩
  · rw [ha'] at hrel
    obtain ⟨a, ha, hchange⟩ := exists_of_rel_some hrel
    exact hchange.calledOff_of_finished (ih a ha) hstage'
  · cases ha'.symm.trans hnew
    cases hstage'

/-- The newest of all attempts comes to a conclusion by itself: unless it is cancelled or gives up,
the slot has just taken its offer. -/
theorem AttemptStep.stored (h : AttemptStep s a action a' t sent) (hs : Numbered s)
    (ha : s.attempt? g = some a) (hnewest : s.slot.floor ≤ g) (hcancelled : a.cancelled = false)
    {how : Attempt.Conclusion} (hbefore : a.stage.conclusion? ≠ some how)
    (hhow : a'.stage.conclusion? = some how) (hgaveUp : how ≠ .gaveUp) : t.slot.stored = g := by
  cases h with
  | take hs =>
    unfold taken at hhow
    split at hhow <;> cases hhow
  | cancelItself _ => exact absurd hhow hbefore
  | @answer outcome _ =>
    -- an answer settles the end only if the compiler gave up
    cases outcome with
    | value v | panicked payload => cases hhow
    | refused why =>
      cases why with
      | diagnostics ds => cases hhow
      | canceled => cases hhow; exact absurd rfl hgaveUp
  | move hmove =>
    rw [slot_afterMove]
    cases Attempt.MoveStep.of_next? hmove with
    | accepted hstage _ => exact (hs.offered ha hstage).1
    | refused hstage hrefused =>
      have hverdict := hs.verdict_newest ha hstage hnewest
      rw [hcancelled] at hverdict hrefused
      exact absurd hverdict hrefused
    | notify hstage | stampEnd hstage | sendEnd hstage | leave hstage =>
      refine absurd ?_ hbefore
      rw [hstage]
      exact hhow
    | _ => cases hhow

/-- When it is settled how the newest of all attempts ends, and it neither gave up nor is cancelled,
the slot holds what it has made. -/
theorem Reachable.stored_of_conclusion (h : s.Reachable) {how : Attempt.Conclusion}
    (ha : s.attempt? g = some a) (hhow : a.stage.conclusion? = some how) (hgaveUp : how ≠ .gaveUp)
    (hcancelled : a.cancelled = false) (hnewest : s.slot.floor ≤ g) : s.slot.stored = g := by
  obtain ⟨config, sink, text, hs⟩ := h
  refine hs.induct_reached (motive := fun u => ∀ a, u.attempt? g = some a →
      a.stage.conclusion? = some how → a.cancelled = false → u.slot.floor ≤ g →
      u.slot.stored = g)
    (fun {u v action sent} hu ih hone a' ha' hhow' hcancelled' hnewest' => ?_)
    (fun _ ha => nomatch ha) a ha hhow hcancelled hnewest
  have hstep := Step.of_step? hone
  have hu' : Numbered u := (numbered_ofConfig config sink text).reaches hu
  have hv : Numbered v := hu'.step hstep.numberStep
  have hfloor : u.slot.floor ≤ g := Nat.le_trans hstep.numberStep.floor_le_floor hnewest'
  -- what the slot holds does not get older, and nothing newer can come in
  suffices hle : g ≤ v.slot.stored from
    Nat.le_antisymm (Nat.le_trans hv.stored_le_floor hnewest') hle
  rcases hstep.attempt? g with hrel | ⟨_, _, _, -, -, -, -, hnew⟩
  · rw [ha'] at hrel
    obtain ⟨a, ha, hchange⟩ := exists_of_rel_some hrel
    have hcancelled : a.cancelled = false := by
      refine Bool.eq_false_iff.2 fun hc => ?_
      exact absurd (hcancelled'.symm.trans (hchange.cancelled hc)) Bool.false_ne_true
    by_cases hbefore : a.stage.conclusion? = some how
    · rw [← ih a ha hbefore hcancelled hfloor]
      exact hu'.stored_le_stored hstep
    · rcases hstep.own_or_touch ha with ⟨a₁, hown, ha₁⟩ | ⟨a₁, ha₁, htouch, -⟩
      · cases ha'.symm.trans ha₁
        exact Nat.le_of_eq (hown.stored hu' ha hfloor hcancelled hbefore hhow' hgaveUp).symm
      · cases ha'.symm.trans ha₁
        exact absurd (htouch.kept.2.2.2 ▸ hhow') hbefore
  · cases ha'.symm.trans hnew
    cases hhow'

/-- The newest of all attempts, where its run waits for it or has seen it come to an end: if it has,
the slot has taken what it made, unless its compiler gave up or cancelled its token. -/
theorem Minded.stored_of_finished (h : Minded actions s) (hs : s.Reachable)
    (hr : s.run? id = some r) (hpatient : r.isPatient = true) (ha : s.attempt? g = some a)
    (hrun : a.run = id) (hnewest : s.slot.floor ≤ g) (hfinished : a.isFinished = true)
    (hgaveUp : a.stage ≠ .finished (some .gaveUp)) (hself : .cancelItself g ∉ actions) :
    s.slot.stored = g := by
  -- it is the attempt that the run remembers as its last one
  have hkept : r.kept? = some g := by
    rw [Run.kept?_of_isPatient hpatient]
    have hle := h.newest hr (Run.highest?_of_isPatient hpatient) ha hrun
    have hpos := (hs.numbered.attempt_le ha).1
    cases hprevious : r.previous with
    | none =>
      rw [hprevious] at hle
      exact absurd hpos (Nat.not_lt.2 hle)
    | some k =>
      rw [hprevious] at hle
      obtain ⟨b, hb, -⟩ := h.own hr (.inl hprevious)
      have hfloor := Nat.le_trans (hs.numbered.attempt_le hb).2 hnewest
      exact congrArg some (Nat.le_antisymm hfloor hle)
  obtain ⟨hoff, hcancelled⟩ := h.kept hr hkept ha
  have hfree : a.cancelled = false := Bool.eq_false_iff.2 fun hc => hself (hcancelled hc)
  obtain ⟨how, hstage⟩ : ∃ how, a.stage = .finished how := by
    unfold Attempt.isFinished at hfinished
    split at hfinished
    · next how hstage => exact ⟨how, hstage⟩
    · cases hfinished
  cases how with
  | none => exact absurd (hoff.symm.trans (hs.calledOff_of_finished ha hstage)) Bool.false_ne_true
  | some how =>
    have hhow : a.stage.conclusion? = some how := by rw [hstage]; rfl
    exact hs.stored_of_conclusion ha hhow (fun heq => hgaveUp (heq ▸ hstage)) hfree hnewest

/-- An attempt keeps its text. -/
theorem Reaches.exists_attempt? (h : s.Reaches t) (ha : s.attempt? g = some a) :
    ∃ a', t.attempt? g = some a' ∧ a'.source = a.source := by
  refine h.induct (motive := fun u => ∃ a', u.attempt? g = some a' ∧ a'.source = a.source)
    (fun hu hone => ?_) ⟨a, ha, rfl⟩
  obtain ⟨b, hb, hsource⟩ := hu
  obtain ⟨b', hb', hchange⟩ := (Step.of_step? hone).exists_attempt? hb
  exact ⟨b', hb', hchange.identity.2.2.trans hsource⟩

/-- What the slot has taken from an attempt stays in it as long as no newer attempt is started. -/
theorem Reaches.latest (hst : s.Reaches t) (hs : s.Reachable) (ha : s.attempt? g = some a)
    (hstored : s.slot.stored = g) (hnewest : t.slot.floor ≤ g) :
    ∃ artifact, t.slot.latest = some artifact ∧ artifact.generation = g ∧
      artifact.source = a.source := by
  have ht := hs.reaches hst
  have hkept : t.slot.stored = g := by
    refine Nat.le_antisymm (Nat.le_trans ht.numbered.stored_le_floor hnewest) ?_
    refine hst.induct_reached (motive := fun u => g ≤ u.slot.stored) (fun hsu hle hone => ?_)
      (Nat.le_of_eq hstored.symm)
    exact Nat.le_trans hle ((hs.reaches hsu).numbered.stored_le_stored (Step.of_step? hone))
  have hpos := (hs.numbered.attempt_le ha).1
  cases hlatest : t.slot.latest with
  | none =>
    rw [Slot.stored, hlatest] at hkept
    exact absurd hpos (hkept ▸ Nat.not_succ_le_zero 0)
  | some artifact =>
    rw [Slot.stored, hlatest] at hkept
    obtain ⟨b, -, hb, -, hsource⟩ := ht.numbered.held hlatest
    obtain ⟨a', ha', hkeeps⟩ := hst.exists_attempt? ha
    subst hkept
    cases ha'.symm.trans hb
    exact ⟨artifact, rfl, rfl, hsource.trans hkeeps⟩

end Service

end CompileWatch
