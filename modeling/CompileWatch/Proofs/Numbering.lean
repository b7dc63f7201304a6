import CompileWatch.Proofs.Changes
import CompileWatch.Proofs.Histories

/-!
# The numbers of attempts

A run that wants to start an attempt takes the next number, raises the floor of the slot to it,
and hands the attempt to the workers. In between, the number is pledged: it belongs to no attempt
yet and to no other run. Several runs may hold pledges at once, and they may raise the floor in
another order than they took their numbers. `Numbered` is what holds of numbers at all times:
whatever has a number got it from the counter, no number is used twice, nothing is at work above the
floor, and what the slot holds is the work of the attempt whose number it bears.
-/
namespace CompileWatch

/-! ## Pledges -/

/-- A number that a run has taken for a text and has not given to an attempt. Has the floor been
raised to it? -/
structure Run.Pledge where
  text : String
  generation : Generation
  raised : Bool

/-- The pledge that a run holds. -/
def Run.pledge? (r : Run) : Option Run.Pledge :=
  match r.stage with
  | .raising text g => some ⟨text, g, false⟩
  | .announcing text g | .launching text g => some ⟨text, g, true⟩
  | _ => none

namespace Service

variable {α : Type} {s t : Service α} {action : Action α} {sent : List Stamped}

def pledge? (s : Service α) (id : Nat) : Option Run.Pledge := (s.run? id).bind Run.pledge?

/-- What a step means for the numbers: nothing, or a number is taken, the floor is raised, an
attempt is launched, or the slot takes an artifact. -/
inductive NumberStep (s t : Service α) : Prop
  | quiet : (∀ k, t.pledge? k = s.pledge? k) → t.generation = s.generation → t.slot = s.slot →
      (∀ k, Option.Rel (Change s) (s.attempt? k) (t.attempt? k)) → NumberStep s t
  | number {id : Nat} {text : String} : s.pledge? id = none →
      (∀ k, t.pledge? k = if k = id then some ⟨text, s.generation + 1, false⟩ else s.pledge? k) →
      t.generation = s.generation + 1 → t.slot = s.slot →
      (∀ k, Option.Rel (Change s) (s.attempt? k) (t.attempt? k)) → NumberStep s t
  | raise {id : Nat} {text : String} {g : Generation} : s.pledge? id = some ⟨text, g, false⟩ →
      (∀ k, t.pledge? k = if k = id then some ⟨text, g, true⟩ else s.pledge? k) →
      t.generation = s.generation → t.slot = s.slot.advance g →
      (∀ k, Option.Rel (Change s) (s.attempt? k) (t.attempt? k)) → NumberStep s t
  | launch {id : Nat} {text : String} {g : Generation} : s.pledge? id = some ⟨text, g, true⟩ →
      (∀ k, t.pledge? k = if k = id then none else s.pledge? k) →
      t.generation = s.generation → t.slot = s.slot → t.attempt? g ≠ none →
      (∀ k, Option.Rel (Change s) (s.attempt? k) (t.attempt? k) ∨
        k = g ∧ s.attempt? k = none ∧
          t.attempt? k = some { generation := g, run := id, source := text }) → NumberStep s t
  | publish {a : Attempt α} {artifact : Artifact α} : s.attempt? a.generation = some a →
      a.stage = .offering artifact → s.slot.verdict artifact a.cancelled = .published →
      (∀ k, t.pledge? k = s.pledge? k) → t.generation = s.generation →
      t.slot = { s.slot with latest := some artifact } →
      t.attempt? a.generation = some { a with stage := .stored artifact.succeeded } →
      (∀ k, Option.Rel (Change s) (s.attempt? k) (t.attempt? k)) → NumberStep s t

theorem RunStep.numberStep {r r' : Run} (h : RunStep s r action r' t sent)
    (hr : s.run? r.id = some r) : NumberStep s t := by
  have hpledge (k : Nat) : t.pledge? k = if k = r.id then r'.pledge? else s.pledge? k := by
    unfold pledge?
    rw [h.run? hr]
    split <;> rfl
  have hsame (hp : r'.pledge? = r.pledge?) (k : Nat) : t.pledge? k = s.pledge? k := by
    rw [hpledge]
    split
    · next hk => subst hk; simp [pledge?, hr, hp]
    · rfl
  have hattempt (hs : ∀ text g, r.stage ≠ .launching text g) (k : Generation) :
      Option.Rel (Change s) (s.attempt? k) (t.attempt? k) := by
    rcases h.attempt? k with hrel | ⟨text, hstage, -⟩
    · exact rel_mono .touch hrel
    · exact absurd hstage (hs text k)
  have hlaunch := h.attempt?
  have hthere := @RunStep.attempt?_ne_none α s t action sent r r' h
  cases h
  case number text hs =>
    refine @NumberStep.number α s _ r.id text ?_ hpledge rfl rfl (hattempt (by simp [hs]))
    simp [pledge?, hr, Run.pledge?, hs]
  case raise text g hs =>
    refine @NumberStep.raise α s _ r.id text g ?_ hpledge rfl rfl (hattempt (by simp [hs]))
    simp [pledge?, hr, Run.pledge?, hs]
  case launch text g hs =>
    refine @NumberStep.launch α s _ r.id text g ?_ hpledge rfl rfl (hthere hs) fun k => ?_
    · simp [pledge?, hr, Run.pledge?, hs]
    · rcases hlaunch k with hrel | ⟨text', hstage, hnone, hsome⟩
      · exact .inl (rel_mono .touch hrel)
      · rw [hs] at hstage
        cases hstage
        exact .inr ⟨rfl, hnone, hsome⟩
  all_goals
    refine .quiet (hsame ?_) rfl rfl (hattempt ?_)
    · simp [Run.pledge?, *]
    · simp [*]

theorem AttemptStep.numberStep {a a' : Attempt α} (h : AttemptStep s a action a' t sent)
    (ha : s.attempt? a.generation = some a) : NumberStep s t := by
  have hpledge (k : Nat) : t.pledge? k = s.pledge? k := by
    unfold pledge?
    rw [h.run?]
  have hput := h.attempt? ha
  have hattempt (k : Generation) : Option.Rel (Change s) (s.attempt? k) (t.attempt? k) := by
    rw [hput]
    split
    · next hk => rw [hk, ha]; exact .some h.change
    · exact change_refl s _
  cases h with
  | @move move hmove =>
    have hmove := Attempt.MoveStep.of_next? hmove
    have hslot := slot_afterMove s a move
    have hgeneration : (s.afterMove a move).generation = s.generation := by
      rw [afterMove_eq]
    cases hmove with
    | accepted hs hv =>
      exact .publish ha hs hv hpledge hgeneration hslot (by simp [hput]) hattempt
    | _ => exact .quiet hpledge hgeneration hslot hattempt
  | _ => exact .quiet hpledge rfl rfl hattempt

theorem Step.numberStep (h : Step s action t sent) : NumberStep s t := by
  have tell (id k : Nat) : (s.updateRun id ({ · with cancelled := true })).pledge? k =
      s.pledge? k := by
    unfold pledge?
    rcases s.run?_tell_cases id k with hk | ⟨r, hr, hk⟩
    · rw [hk]
    · rw [hk, hr]; rfl
  cases h with
  | run hr h => exact h.numberStep hr
  | attempt ha h => exact h.numberStep ha
  | start hrun =>
    refine .quiet (fun k => ?_) rfl rfl fun k => change_refl s _
    unfold pledge?
    refine (congrArg (·.bind Run.pledge?) (s.run?_append _ k)).trans ?_
    cases s.run? k with
    | some r => rfl
    | none =>
      simp only [Option.none_or]
      split <;> rfl
  | @tellRun n id call _ _ _ => exact .quiet (tell id) rfl rfl fun k => change_refl s _
  | @drop id _ => exact .quiet (tell id) rfl rfl fun k => change_refl s _
  | ask h => exact .quiet (fun _ => rfl) rfl (Board.slot_ask? h) fun k => change_refl s _
  | report h => exact .quiet (fun _ => rfl) rfl (Board.slot_ask? h) fun k => change_refl s _
  | wake h => exact .quiet (fun _ => rfl) rfl (Board.slot_wake? h) fun k => change_refl s _
  | abandon h => exact .quiet (fun _ => rfl) rfl (Board.slot_abandon? h) fun k => change_refl s _
  | _ => exact .quiet (fun _ => rfl) rfl rfl fun k => change_refl s _

/-! ## What holds of numbers -/

theorem NumberStep.floor_le_floor (h : NumberStep s t) : s.slot.floor ≤ t.slot.floor := by
  cases h with
  | quiet _ _ hslot _ => exact Nat.le_of_eq (by rw [hslot])
  | number _ _ _ hslot _ => exact Nat.le_of_eq (by rw [hslot])
  | raise _ _ _ hslot _ => rw [hslot]; exact Nat.le_max_left _ _
  | launch _ _ _ hslot _ _ => exact Nat.le_of_eq (by rw [hslot])
  | publish _ _ _ _ _ hslot _ _ => exact Nat.le_of_eq (by rw [hslot])

/-- An attempt was there before a step, or it is the one whose number was pledged. -/
theorem NumberStep.attempt? (h : NumberStep s t) (k : Generation) :
    Option.Rel (Change s) (s.attempt? k) (t.attempt? k) ∨
      ∃ id text, s.pledge? id = some ⟨text, k, true⟩ ∧ s.attempt? k = none ∧
        t.attempt? k = some { generation := k, run := id, source := text } := by
  cases h with
  | quiet _ _ _ hattempt => exact .inl (hattempt k)
  | number _ _ _ _ hattempt => exact .inl (hattempt k)
  | raise _ _ _ _ hattempt => exact .inl (hattempt k)
  | @launch id text g hpledge _ _ _ _ hattempt =>
    rcases hattempt k with hrel | ⟨rfl, hnone, hsome⟩
    · exact .inl hrel
    · exact .inr ⟨id, text, hpledge, hnone, hsome⟩
  | publish _ _ _ _ _ _ _ hattempt => exact .inl (hattempt k)

/-- What holds of the numbers of attempts at all times. -/
structure Numbered (s : Service α) : Prop where
  /-- The floor is a number that was handed out. -/
  floor_le : s.slot.floor ≤ s.generation
  /-- A pledged number was handed out, -/
  pledge_le {id : Nat} {p : Run.Pledge} : s.pledge? id = some p →
    1 ≤ p.generation ∧ p.generation ≤ s.generation
  /-- the floor is at it once it was raised, -/
  pledge_raised {id : Nat} {p : Run.Pledge} : s.pledge? id = some p → p.raised = true →
    p.generation ≤ s.slot.floor
  /-- it is the number of no attempt, -/
  pledge_unused {id : Nat} {p : Run.Pledge} : s.pledge? id = some p →
    s.attempt? p.generation = none
  /-- and no other run has pledged it. -/
  pledge_unique {i j : Nat} {p q : Run.Pledge} : s.pledge? i = some p → s.pledge? j = some q →
    p.generation = q.generation → i = j
  /-- The floor was raised to the number of every attempt. -/
  attempt_le {g : Generation} {a : Attempt α} : s.attempt? g = some a →
    1 ≤ g ∧ g ≤ s.slot.floor
  /-- An attempt offers an artifact of its own number and text. -/
  offered {g : Generation} {a : Attempt α} {artifact : Artifact α} : s.attempt? g = some a →
    a.stage = .offering artifact → artifact.generation = g ∧ artifact.source = a.source
  /-- What the slot holds was published by the attempt whose number it bears. -/
  held {artifact : Artifact α} : s.slot.latest = some artifact →
    ∃ a succeeded, s.attempt? artifact.generation = some a ∧
      a.stage.conclusion? = some (.published succeeded) ∧ artifact.source = a.source

theorem Numbered.attempt_le_step (h : Numbered s) (hstep : NumberStep s t) {g : Generation}
    {a : Attempt α} (ha : t.attempt? g = some a) : 1 ≤ g ∧ g ≤ t.slot.floor := by
  have hfloor := hstep.floor_le_floor
  rcases hstep.attempt? g with hrel | ⟨id, text, hp, -, -⟩
  · rw [ha] at hrel
    obtain ⟨b, hb, -⟩ := exists_of_rel_some hrel
    exact ⟨(h.attempt_le hb).1, Nat.le_trans (h.attempt_le hb).2 hfloor⟩
  · exact ⟨(h.pledge_le hp).1, Nat.le_trans (h.pledge_raised hp rfl) hfloor⟩

theorem Numbered.offered_step (h : Numbered s) (hstep : NumberStep s t) {g : Generation}
    {a : Attempt α} {artifact : Artifact α} (ha : t.attempt? g = some a)
    (hs : a.stage = .offering artifact) : artifact.generation = g ∧ artifact.source = a.source := by
  rcases hstep.attempt? g with hrel | ⟨id, text, -, -, hnew⟩
  · rw [ha] at hrel
    obtain ⟨b, hb, hchange⟩ := exists_of_rel_some hrel
    have hsource := hchange.identity.2.2
    rcases hchange.offering hs with hs | ⟨hg, hsrc⟩
    · rw [hsource]; exact h.offered hb hs
    · exact ⟨hg.trans (generation_of_attempt? hb), hsrc.trans hsource.symm⟩
  · rw [ha] at hnew
    cases hnew
    cases hs

/-- An attempt that has published goes on having published. -/
theorem NumberStep.published (h : NumberStep s t) {g : Generation} {a : Attempt α}
    {succeeded : Bool} (ha : s.attempt? g = some a)
    (hc : a.stage.conclusion? = some (.published succeeded)) :
    ∃ a', t.attempt? g = some a' ∧ a'.stage.conclusion? = some (.published succeeded) ∧
      a'.source = a.source := by
  rcases h.attempt? g with hrel | ⟨-, -, -, hnone, -⟩
  · rw [ha] at hrel
    obtain ⟨a', ha', hchange⟩ := exists_of_some_rel hrel
    exact ⟨a', ha', hchange.conclusion hc, hchange.identity.2.2⟩
  · rw [ha] at hnone
    cases hnone

theorem Numbered.held_step (h : Numbered s) (hstep : NumberStep s t) {artifact : Artifact α}
    (hheld : t.slot.latest = some artifact) :
    ∃ a succeeded, t.attempt? artifact.generation = some a ∧
      a.stage.conclusion? = some (.published succeeded) ∧ artifact.source = a.source := by
  have keep (hsame : t.slot.latest = s.slot.latest) :
      ∃ a succeeded, t.attempt? artifact.generation = some a ∧
        a.stage.conclusion? = some (.published succeeded) ∧ artifact.source = a.source := by
    obtain ⟨a, succeeded, ha, hc, hsource⟩ := h.held (hsame ▸ hheld)
    obtain ⟨a', ha', hc', hsource'⟩ := hstep.published ha hc
    exact ⟨a', succeeded, ha', hc', hsource.trans hsource'.symm⟩
  cases hstep with
  | quiet _ _ hslot _ => exact keep (by rw [hslot])
  | number _ _ _ hslot _ => exact keep (by rw [hslot])
  | raise _ _ _ hslot _ => exact keep (by rw [hslot]; rfl)
  | launch _ _ _ hslot _ _ => exact keep (by rw [hslot])
  | publish ha hs _ _ _ hslot hput _ =>
    rw [hslot] at hheld
    cases hheld
    obtain ⟨hg, hsource⟩ := h.offered ha hs
    rw [← hg] at hput
    exact ⟨_, _, hput, rfl, hsource⟩

theorem NumberStep.generation_le (h : NumberStep s t) : s.generation ≤ t.generation := by
  cases h with
  | quiet _ hgeneration _ _ => exact Nat.le_of_eq hgeneration.symm
  | number _ _ hgeneration _ _ => rw [hgeneration]; exact Nat.le_succ _
  | raise _ _ hgeneration _ _ => exact Nat.le_of_eq hgeneration.symm
  | launch _ _ hgeneration _ _ _ => exact Nat.le_of_eq hgeneration.symm
  | publish _ _ _ _ hgeneration _ _ _ => exact Nat.le_of_eq hgeneration.symm

/-- A pledge was there before a step, or its floor has just been raised, or its number has just been
taken. -/
theorem NumberStep.pledge? (h : NumberStep s t) {k : Nat} {p : Run.Pledge}
    (hp : t.pledge? k = some p) :
    s.pledge? k = some p ∨
      (s.pledge? k = some { p with raised := false } ∧ p.generation ≤ t.slot.floor) ∨
      (p.generation = s.generation + 1 ∧ t.generation = s.generation + 1 ∧ p.raised = false) := by
  cases h with
  | quiet hpledge _ _ _ => exact .inl (by rw [← hpledge, hp])
  | number _ hpledge hgeneration _ _ =>
    rw [hpledge] at hp
    split at hp
    · cases hp; exact .inr (.inr ⟨rfl, hgeneration, rfl⟩)
    · exact .inl hp
  | raise hold hpledge _ hslot _ =>
    rw [hpledge] at hp
    split at hp
    · next hk =>
      cases hp
      refine .inr (.inl ⟨hk ▸ hold, ?_⟩)
      rw [hslot]
      exact Nat.le_max_right _ _
    · exact .inl hp
  | launch _ hpledge _ _ _ _ =>
    rw [hpledge] at hp
    split at hp
    · cases hp
    · exact .inl hp
  | publish _ _ _ hpledge _ _ _ _ => exact .inl (by rw [← hpledge, hp])

theorem Numbered.floor_le_step (h : Numbered s) (hstep : NumberStep s t) :
    t.slot.floor ≤ t.generation := by
  cases hstep with
  | quiet _ hgeneration hslot _ => rw [hgeneration, hslot]; exact h.floor_le
  | number _ _ hgeneration hslot _ =>
    rw [hgeneration, hslot]; exact Nat.le_succ_of_le h.floor_le
  | raise hold _ hgeneration hslot _ =>
    rw [hgeneration, hslot]
    exact Nat.max_le.2 ⟨h.floor_le, (h.pledge_le hold).2⟩
  | launch _ _ hgeneration hslot _ _ => rw [hgeneration, hslot]; exact h.floor_le
  | publish _ _ _ _ hgeneration hslot _ _ => rw [hgeneration, hslot]; exact h.floor_le

theorem Numbered.pledge_le_step (h : Numbered s) (hstep : NumberStep s t) {id : Nat}
    {p : Run.Pledge} (hp : t.pledge? id = some p) :
    1 ≤ p.generation ∧ p.generation ≤ t.generation := by
  have hle := hstep.generation_le
  rcases hstep.pledge? hp with hold | ⟨hold, -⟩ | ⟨hnew, hgeneration, -⟩
  · exact ⟨(h.pledge_le hold).1, Nat.le_trans (h.pledge_le hold).2 hle⟩
  · exact ⟨(h.pledge_le hold).1, Nat.le_trans (h.pledge_le hold).2 hle⟩
  · rw [hnew, hgeneration]; exact ⟨Nat.le_add_left 1 _, Nat.le_refl _⟩

theorem Numbered.pledge_raised_step (h : Numbered s) (hstep : NumberStep s t) {id : Nat}
    {p : Run.Pledge} (hp : t.pledge? id = some p) (hraised : p.raised = true) :
    p.generation ≤ t.slot.floor := by
  rcases hstep.pledge? hp with hold | ⟨-, hfloor⟩ | ⟨-, -, hnot⟩
  · exact Nat.le_trans (h.pledge_raised hold hraised) hstep.floor_le_floor
  · exact hfloor
  · rw [hraised] at hnot; cases hnot

/-- A number that is taken anew lies above all that was handed out, so it is nobody's. -/
theorem Numbered.attempt?_eq_none (h : Numbered s) {g : Generation} (hg : s.generation < g) :
    s.attempt? g = none := by
  cases ha : s.attempt? g with
  | none => rfl
  | some a =>
    have hle := Nat.le_trans (h.attempt_le ha).2 h.floor_le
    exact absurd hle (Nat.not_le.2 hg)

theorem Numbered.pledge_unused_step (h : Numbered s) (hstep : NumberStep s t) {id : Nat}
    {p : Run.Pledge} (hp : t.pledge? id = some p) : t.attempt? p.generation = none := by
  have hnone : s.attempt? p.generation = none := by
    rcases hstep.pledge? hp with hold | ⟨hold, -⟩ | ⟨hnew, -, -⟩
    · exact h.pledge_unused hold
    · have hunused := h.pledge_unused hold
      exact hunused
    · exact h.attempt?_eq_none (by rw [hnew]; exact Nat.lt_succ_self _)
  have hrel : Option.Rel (Change s) (s.attempt? p.generation) (t.attempt? p.generation) := by
    cases hstep with
    | quiet _ _ _ hattempt => exact hattempt _
    | number _ _ _ _ hattempt => exact hattempt _
    | raise _ _ _ _ hattempt => exact hattempt _
    | @launch id' text g hold hpledge _ _ _ hattempt =>
      -- the launched number was pledged by the launching run only, which has given it up
      rcases hattempt p.generation with hrel | ⟨hg, -, -⟩
      · exact hrel
      · rw [hpledge] at hp
        split at hp
        · cases hp
        · next hne => exact absurd (h.pledge_unique hp hold hg) hne
    | publish _ _ _ _ _ _ _ hattempt => exact hattempt _
  rw [hnone] at hrel
  exact eq_none_of_rel hrel

theorem Numbered.pledge_unique_step (h : Numbered s) (hstep : NumberStep s t) {i j : Nat}
    {p q : Run.Pledge} (hp : t.pledge? i = some p) (hq : t.pledge? j = some q)
    (hpq : p.generation = q.generation) : i = j := by
  cases hstep with
  | quiet hpledge _ _ _ => exact h.pledge_unique (hpledge i ▸ hp) (hpledge j ▸ hq) hpq
  | @number id text _ hpledge _ _ _ =>
    rw [hpledge] at hp hq
    split at hp <;> split at hq
    · next hi hj => exact hi.trans hj.symm
    · cases hp
      have hle := (h.pledge_le hq).2
      rw [← hpq] at hle
      exact absurd hle (Nat.not_succ_le_self _)
    · cases hq
      have hle := (h.pledge_le hp).2
      rw [hpq] at hle
      exact absurd hle (Nat.not_succ_le_self _)
    · exact h.pledge_unique hp hq hpq
  | @raise id text g hold hpledge _ _ _ =>
    rw [hpledge] at hp hq
    split at hp <;> split at hq
    · next hi hj => exact hi.trans hj.symm
    · next hi _ => cases hp; exact hi.trans (h.pledge_unique hold hq hpq)
    · next _ hj => cases hq; exact (h.pledge_unique hp hold hpq).trans hj.symm
    · exact h.pledge_unique hp hq hpq
  | launch _ hpledge _ _ _ _ =>
    rw [hpledge] at hp hq
    split at hp <;> split at hq
    · next hi hj => exact hi.trans hj.symm
    · cases hp
    · cases hq
    · exact h.pledge_unique hp hq hpq
  | publish _ _ _ hpledge _ _ _ _ => exact h.pledge_unique (hpledge i ▸ hp) (hpledge j ▸ hq) hpq

theorem Numbered.step (h : Numbered s) (hstep : NumberStep s t) : Numbered t where
  floor_le := h.floor_le_step hstep
  pledge_le := h.pledge_le_step hstep
  pledge_raised := h.pledge_raised_step hstep
  pledge_unused := h.pledge_unused_step hstep
  pledge_unique := h.pledge_unique_step hstep
  attempt_le := h.attempt_le_step hstep
  offered := h.offered_step hstep
  held := h.held_step hstep

theorem numbered_ofConfig (config : Config) (sink : MessageSink) (text : String) :
    Numbered (ofConfig config sink text : Service α) where
  floor_le := Nat.le_refl _
  pledge_le h := nomatch h
  pledge_raised h := nomatch h
  pledge_unused h := nomatch h
  pledge_unique h := nomatch h
  attempt_le h := nomatch h
  offered h := nomatch h
  held h := nomatch h

theorem Numbered.reaches (h : Numbered s) (hst : s.Reaches t) : Numbered t :=
  hst.induct (fun hs hstep => hs.step (Step.of_step? hstep).numberStep) h

theorem Reachable.numbered (h : s.Reachable) : Numbered s := by
  obtain ⟨config, sink, text, hs⟩ := h
  exact (numbered_ofConfig config sink text).reaches hs

theorem Numbered.stored_le_floor (h : Numbered s) : s.slot.stored ≤ s.slot.floor := by
  unfold Slot.stored
  split
  · exact Nat.zero_le _
  · next artifact hheld =>
    obtain ⟨a, succeeded, ha, -, -⟩ := h.held hheld
    exact (h.attempt_le ha).2

theorem Reaches.floor_le_floor (h : s.Reaches t) : s.slot.floor ≤ t.slot.floor :=
  h.induct (motive := fun u => s.slot.floor ≤ u.slot.floor)
    (fun hle hstep => Nat.le_trans hle (Step.of_step? hstep).numberStep.floor_le_floor)
    (Nat.le_refl _)

end Service

end CompileWatch
