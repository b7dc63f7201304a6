import CompileWatch.Proofs.Newest
import CompileWatch.Proofs.Stopping
import Mathlib.Data.List.Nodup

/-!
# One run after the other

When a run is started only after the one before it has announced its end, the runs take turns: all
but the last one have ended. A run takes a new number only when it has given up the attempt that it
worked with, having seen that it is finished or cancelled its token. So whoever is still at work
without being cancelled has the newest number of all, and the floor of the slot refuses nobody whose
token is not cancelled.
-/
namespace CompileWatch

/-- The number of the attempt that a run works with or is about to launch. -/
def Run.concern? (r : Run) : Option Generation :=
  match r.stage with
  | .raising _ g | .announcing _ g | .launching _ g => some g
  | _ => r.working?

theorem Run.concern?_of_working? {r : Run} {g : Generation} (h : r.working? = some g) :
    r.concern? = some g := by
  unfold Run.concern?
  split
  · next hs => simp [Run.working?, hs] at h
  · next hs => simp [Run.working?, hs] at h
  · next hs => simp [Run.working?, hs] at h
  · exact h

/-- A run that has announced its end has nothing to do with any attempt. -/
theorem Run.concern?_of_ended {r : Run} {result : StopResult} (h : r.stage = .ended result) :
    r.concern? = none := by
  simp [Run.concern?, Run.working?, h]

namespace Service

variable {α : Type} {s t : Service α} {action : Action α} {sent : List Stamped}

/-! ## Attempts are told apart by their numbers -/

/-- The numbers of all attempts, in the order in which they were launched. -/
def generations (s : Service α) : List Generation := s.attempts.map (·.generation)

theorem map_generation_noteUpTo (id n : Nat) (list : List (Attempt α)) :
    (noteUpTo id n list).map (·.generation) = list.map (·.generation) := by
  induction list generalizing n with
  | nil => cases n <;> rfl
  | cons a rest ih =>
    cases n with
    | zero => rfl
    | succ n =>
      unfold noteUpTo
      split
      · simp [ih n]
      · simp [ih (n + 1)]

@[simp] theorem generations_looked (s : Service α) (id n : Nat) :
    (s.looked id n).generations = s.generations := by
  rw [← note_eq_looked]
  unfold note generations
  split
  · exact map_generation_noteUpTo id n s.attempts
  · rfl

theorem generations_updateAttempt (s : Service α) (g : Generation) {f : Attempt α → Attempt α}
    (hf : ∀ a : Attempt α, a.generation = g → (f a).generation = g) :
    (s.updateAttempt g f).generations = s.generations := by
  simp only [generations, updateAttempt, List.map_map]
  refine List.map_congr_left fun a _ => ?_
  simp only [Function.comp]
  split
  · next h => rw [hf a h, h]
  · rfl

@[simp] theorem generations_cancelAttempt (s : Service α) (g : Generation) :
    (s.cancelAttempt g).generations = s.generations :=
  s.generations_updateAttempt g fun _ h => h

@[simp] theorem generations_callOff (s : Service α) (g : Generation) :
    (s.callOff g).generations = s.generations :=
  s.generations_updateAttempt g fun _ h => h

@[simp] theorem generations_callOffRun (s : Service α) (id : Nat) :
    (s.callOffRun id).generations = s.generations := by
  simp only [generations, callOffRun, List.map_map]
  refine List.map_congr_left fun a _ => ?_
  simp only [Function.comp]
  split <;> rfl

@[simp] theorem generations_launched (s : Service α) (id : Nat) (text : String) (g : Generation) :
    (s.launched id text g).generations = s.generations ++ [g] := by
  simp [generations, launched]

/-- A run changes the numbers of the attempts only by adding the one that it launches. -/
theorem RunStep.generations {r r' : Run} (h : RunStep s r action r' t sent) :
    t.generations = s.generations ∨
      ∃ text g, r.stage = .launching text g ∧ t.generations = s.generations ++ [g] := by
  cases h
  case rest | drained | graceEnds | glance => exact .inl (s.generations_looked _ _)
  case die => exact .inl (s.generations_callOffRun _)
  case cancel | cancelLast => exact .inl (s.generations_cancelAttempt _)
  case callOff | callOffLast => exact .inl (s.generations_callOff _)
  case launch text g hs =>
    refine .inr ⟨text, g, hs, ?_⟩
    exact ((s.launched r.id text g).generations_looked _ _).trans (s.generations_launched _ _ _)
  all_goals exact .inl rfl

theorem AttemptStep.generations {a a' : Attempt α} (h : AttemptStep s a action a' t sent) :
    t.generations = s.generations := by
  cases h with
  | take _ =>
    refine s.generations_updateAttempt _ fun b hb => ?_
    unfold taken
    split <;> exact hb
  | cancelItself _ => exact s.generations_cancelAttempt _
  | answer _ => exact s.generations_updateAttempt _ fun _ hb => hb
  | @move move hmove =>
    have hkeep : move.attempt.generation = a.generation :=
      (Change.move (s := s) (.of_next? hmove)).identity.1
    rw [afterMove_eq]
    exact s.generations_updateAttempt a.generation fun _ _ => hkeep

theorem Step.generations (h : Step s action t sent) :
    t.generations = s.generations ∨
      ∃ id text g, s.pledge? id = some ⟨text, g, true⟩ ∧ t.generations = s.generations ++ [g] := by
  cases h with
  | @run r r' _ _ _ hr h =>
    rcases h.generations with hsame | ⟨text, g, hs, hnew⟩
    · exact .inl hsame
    · exact .inr ⟨r.id, text, g, by simp [pledge?, hr, Run.pledge?, hs], hnew⟩
  | attempt _ h => exact .inl h.generations
  | _ => exact .inl rfl

theorem not_mem_generations {g : Generation} (h : s.attempt? g = none) : g ∉ s.generations := by
  intro hmem
  obtain ⟨a, ha, rfl⟩ := List.mem_map.1 hmem
  simpa using List.find?_eq_none.1 h a ha

/-- No number is used twice. -/
theorem Reachable.nodup_generations (h : s.Reachable) : s.generations.Nodup := by
  obtain ⟨config, sink, text, hs⟩ := h
  refine hs.induct_reached (motive := fun u => u.generations.Nodup)
    (fun {u v a sent} hu hnodup hstep => ?_) List.nodup_nil
  have hnumbered : Numbered u := (numbered_ofConfig config sink text).reaches hu
  rcases (Step.of_step? hstep).generations with hsame | ⟨id, text', g, hp, hnew⟩
  · rw [hsame]
    exact hnodup
  · have hunused : u.attempt? g = none := hnumbered.pledge_unused hp
    rw [hnew, ← List.concat_eq_append]
    exact List.Nodup.concat (not_mem_generations hunused) hnodup

/-- An attempt is found under its own number. -/
theorem attempt?_of_mem (hnodup : s.generations.Nodup) {a : Attempt α} (ha : a ∈ s.attempts) :
    s.attempt? a.generation = some a := by
  obtain ⟨b, hb⟩ := exists_attempt?_of_mem ha
  have hsame : b.generation = a.generation := generation_of_attempt? hb
  rw [hb, List.inj_on_of_nodup_map hnodup (mem_of_attempt? hb) ha hsame]

/-! ## Runs that take turns -/

/-- Does a start that makes a run come after the end of the run before it? -/
def InTurn (s : Service α) (action : Action α) : Prop :=
  action = .start → s.isRunning = false → ∀ r, s.run? s.runs.length = some r →
    ∃ result, r.stage = .ended result

/-- Only starts have to come in turn. -/
theorem along_inTurn_of_ne {actions : List (Action α)} (h : ∀ a ∈ actions, a ≠ .start) :
    s.Along InTurn actions :=
  along_of_forall fun a ha _ hstart => absurd hstart (h a ha)

theorem RunStep.length_runs {r r' : Run} (h : RunStep s r action r' t sent) :
    t.runs.length = s.runs.length := by
  cases h <;> simp [looked, moveRun, updateRun, stamped, callOffRun, cancelAttempt,
    Service.callOff, updateAttempt, putSlot, launched]

theorem AttemptStep.length_runs {a a' : Attempt α} (h : AttemptStep s a action a' t sent) :
    t.runs.length = s.runs.length := by
  cases h with
  | move _ => rw [afterMove_eq]
  | _ => rfl

/-- Only a start makes a run. -/
theorem Step.length_runs (h : Step s action t sent) :
    t.runs.length = s.runs.length ∨
      action = .start ∧ s.isRunning = false ∧ t.runs.length = s.runs.length + 1 := by
  cases h with
  | run _ h => exact .inl h.length_runs
  | attempt _ h => exact .inl h.length_runs
  | start hrun => exact .inr ⟨rfl, hrun, by simp [stamped]⟩
  | tellRun _ _ _ | drop _ => exact .inl (by simp [updateRun, moveStop])
  | _ => exact .inl rfl

/-- A run that was not there before was made by a start. -/
theorem Step.length_runs_of_new (h : Step s action t sent) {id : Nat} {r : Run}
    (hnone : s.run? id = none) (hr : t.run? id = some r) :
    t.runs.length = s.runs.length + 1 := by
  have old (hsame : t.run? id = s.run? id) : t.runs.length = s.runs.length + 1 := by
    rw [hsame, hnone] at hr
    cases hr
  have told (k : Nat) (hsame : t.run? id = (s.updateRun k ({ · with cancelled := true })).run? id) :
      t.runs.length = s.runs.length + 1 := by
    rcases s.run?_tell_cases k id with hk | ⟨r₀, hr₀, -⟩
    · exact old (hsame.trans hk)
    · rw [hnone] at hr₀
      cases hr₀
  cases h with
  | @run r₀ r₁ _ _ _ hr₀ h =>
    have hput := h.run? hr₀ id
    split at hput
    · next hid =>
      rw [hid, hr₀] at hnone
      cases hnone
    · exact old hput
  | attempt _ h => exact old (h.run? id)
  | start hrun => simp [stamped]
  | @tellRun _ k _ _ _ _ => exact told k rfl
  | @drop k _ => exact told k rfl
  | _ => exact old rfl

/-- Only a run that takes a number changes the number handed out last. -/
theorem Step.generation (h : Step s action t sent) :
    t.generation = s.generation ∨
      ∃ r text, s.run? r.id = some r ∧ r.stage = .numbering text ∧
        t.run? r.id = some { r with stage := .raising text (s.generation + 1) } ∧
        t.generation = s.generation + 1 := by
  cases h with
  | @run r r' _ _ _ hr h =>
    have hrun := h.run? hr r.id
    cases h
    case number text hs => exact .inr ⟨r, text, hr, hs, by simpa using hrun, rfl⟩
    all_goals exact .inl rfl
  | attempt _ h =>
    cases h with
    | move _ => rw [afterMove_eq]; exact .inl rfl
    | _ => exact .inl rfl
  | _ => exact .inl rfl

/-- A run goes on with the same attempt, or takes a new number, or is done with it. -/
theorem RunStep.concern? {r r' : Run} (h : RunStep s r action r' t sent) {g : Generation}
    (hg : r'.concern? = some g) :
    r.concern? = some g ∧ t.generation = s.generation ∨ g = t.generation := by
  cases h
  case number text hs => exact .inr (Option.some.inj hg).symm
  all_goals
    refine .inl ⟨?_, rfl⟩
    simp_all [Run.concern?, Run.working?]

/-- What holds of the runs at all times if they take turns. -/
structure TakingTurns (s : Service α) : Prop where
  run_le {id : Nat} {r : Run} : s.run? id = some r → id ≤ s.runs.length
  /-- All runs but the last one have ended. -/
  ended {id : Nat} {r : Run} : s.run? id = some r → id ≠ s.runs.length →
    ∃ result, r.stage = .ended result
  /-- The number that a run is concerned with is the newest one. -/
  newest {id : Nat} {r : Run} {g : Generation} : s.run? id = some r → r.concern? = some g →
    g = s.generation

theorem TakingTurns.run_le_step (h : TakingTurns s) (hstep : Step s action t sent) {id : Nat}
    {r' : Run} (hr' : t.run? id = some r') : id ≤ t.runs.length := by
  have hle : s.runs.length ≤ t.runs.length := by
    rcases hstep.length_runs with hsame | ⟨-, -, hnew⟩ <;> omega
  rcases hstep.run? id with hsame | ⟨r, hr, -⟩ | ⟨r, -, -, hr, -, -⟩ | ⟨hid, hnone, hnew⟩
  · exact Nat.le_trans (h.run_le (hsame ▸ hr')) hle
  · exact Nat.le_trans (h.run_le hr) hle
  · exact Nat.le_trans (h.run_le hr) hle
  · exact Nat.le_of_eq (hid.trans (hstep.length_runs_of_new hnone hnew).symm)

/-- A run that has not ended is the last one. -/
theorem TakingTurns.eq_length (h : TakingTurns s) {id : Nat} {r : Run} (hr : s.run? id = some r)
    (hrun : ∀ result, r.stage ≠ .ended result) : id = s.runs.length := by
  refine Decidable.byContradiction fun hne => ?_
  obtain ⟨result, hended⟩ := h.ended hr hne
  exact hrun result hended

theorem TakingTurns.ended_step (h : TakingTurns s) (hturn : InTurn s action)
    (hstep : Step s action t sent) {id : Nat} {r' : Run} (hr' : t.run? id = some r')
    (hne : id ≠ t.runs.length) : ∃ result, r'.stage = .ended result := by
  -- a run that was there before has ended, since it was not the last one or a new one is started
  have hended {r : Run} (hr : s.run? id = some r) : ∃ result, r.stage = .ended result := by
    rcases hstep.length_runs with hsame | ⟨hstart, hidle, -⟩
    · exact h.ended hr (hsame ▸ hne)
    · by_cases hlast : id = s.runs.length
      · exact hturn hstart hidle r (hlast ▸ hr)
      · exact h.ended hr hlast
  rcases hstep.run? id with hsame | ⟨r, hr, htold⟩ | ⟨r, r₁, hid, hr, hr₁, hrun⟩ |
    ⟨hid, hnone, hnew⟩
  · exact hended (hsame ▸ hr')
  · rw [hr'] at htold
    cases htold
    obtain ⟨result, hover⟩ := hended hr
    exact ⟨result, hover⟩
  · obtain ⟨result, hover⟩ := hended hr
    have hresult := hrun.result?_eq_none
    simp [Run.result?, hover] at hresult
  · exact absurd (hid.trans (hstep.length_runs_of_new hnone hnew).symm) hne

theorem TakingTurns.newest_step (h : TakingTurns s) (hstep : Step s action t sent) {id : Nat}
    {r' : Run} {g : Generation} (hr' : t.run? id = some r') (hg : r'.concern? = some g) :
    g = t.generation := by
  -- a run that does nothing in the step: no other one can have taken a number
  have others {r : Run} (hr : s.run? id = some r) (hold : r.concern? = some g) :
      g = t.generation := by
    rcases hstep.generation with hsame | ⟨r₀, text, hr₀, hstage, hr₁, hnew⟩
    · exact (h.newest hr hold).trans hsame.symm
    · have hlast : id = s.runs.length := h.eq_length hr fun result hended => by
        rw [Run.concern?_of_ended hended] at hold
        cases hold
      have hid : r₀.id = s.runs.length := h.eq_length hr₀ (by simp [hstage])
      rw [hid, ← hlast, hr'] at hr₁
      cases hr₁
      exact (Option.some.inj hg).symm.trans hnew.symm
  rcases hstep.run? id with hsame | ⟨r, hr, htold⟩ | ⟨r, r₁, hid, hr, hr₁, hrun⟩ | ⟨-, -, hnew⟩
  · exact others (hsame ▸ hr') hg
  · rw [hr'] at htold
    cases htold
    exact others hr hg
  · rw [hr'] at hr₁
    cases hr₁
    rcases hrun.concern? hg with ⟨hold, hsame⟩ | hnew
    · exact (h.newest hr hold).trans hsame.symm
    · exact hnew
  · rw [hr'] at hnew
    cases hnew
    cases hg

theorem TakingTurns.step (h : TakingTurns s) (hturn : InTurn s action)
    (hstep : Step s action t sent) : TakingTurns t where
  run_le := h.run_le_step hstep
  ended := h.ended_step hturn hstep
  newest := h.newest_step hstep

theorem takingTurns_ofConfig (config : Config) (sink : MessageSink) (text : String) :
    TakingTurns (ofConfig config sink text : Service α) where
  run_le h := nomatch h
  ended h := nomatch h
  newest h := nomatch h

/-! ## Who is still at work -/

/-- An attempt that is neither finished nor cancelled has the number handed out last. -/
theorem TakingTurns.eq_generation (h : TakingTurns s) (hs : Tended s) {g : Generation}
    {a : Attempt α} (ha : s.attempt? g = some a) (hidle : a.isIdle = false) :
    g = s.generation := by
  obtain ⟨r, hr⟩ := hs.owned ha
  rcases hs.idle ha hr with hyes | hworking
  · rw [hidle] at hyes
    cases hyes
  · exact h.newest hr (Run.concern?_of_working? hworking)

/-- The floor is at the number of such an attempt. -/
theorem TakingTurns.eq_floor (h : TakingTurns s) (hs : Tended s) (hn : Numbered s)
    {g : Generation} {a : Attempt α} (ha : s.attempt? g = some a) (hidle : a.isIdle = false) :
    g = s.slot.floor := by
  refine Nat.le_antisymm (hn.attempt_le ha).2 ?_
  rw [h.eq_generation hs ha hidle]
  exact hn.floor_le

/-- An offer is refused only if the token of the attempt is cancelled. -/
theorem TakingTurns.verdict (h : TakingTurns s) (hs : Tended s) (hn : Numbered s)
    {g : Generation} {a : Attempt α} {artifact : Artifact α} (ha : s.attempt? g = some a)
    (hstage : a.stage = .offering artifact) :
    s.slot.verdict artifact a.cancelled = if a.cancelled then .cancelled else .published := by
  cases hc : a.cancelled with
  | true => rfl
  | false =>
    have hidle : a.isIdle = false := by simp [Attempt.isIdle, Attempt.isFinished, hstage, hc]
    have hnewest := Nat.le_of_eq (h.eq_floor hs hn ha hidle).symm
    simpa [hc] using hn.verdict_newest ha hstage hnewest

/-- In a history in which every run is started after the run before it has announced its end: an
attempt whose number is below the floor is finished or its token is cancelled. So at most one
attempt of all runs is neither finished nor cancelled; its number is the one handed out last, which
is that of the floor, and no attempt has a newer one. An offer to the slot is never refused as
superseded: whatever the floor or the stored artifact would refuse is cancelled. -/
theorem cancelled_before_overtaken {config : Config} {sink : MessageSink} {text : String}
    {actions : List (Action α)}
    (hsteps : (ofConfig config sink text : Service α).steps? actions = some (s, sent))
    (hturns : (ofConfig config sink text : Service α).Along InTurn actions) :
    (∀ a ∈ s.attempts, a.generation < s.slot.floor → a.isFinished = false →
      a.cancelled = true) ∧
    (s.attempts.filter fun a => !a.isFinished && !a.cancelled).length ≤ 1 ∧
    (∀ a ∈ s.attempts, a.isFinished = false → a.cancelled = false →
      a.generation = s.generation ∧ a.generation = s.slot.floor ∧
        ∀ b ∈ s.attempts, b.generation ≤ a.generation) ∧
    (∀ a ∈ s.attempts, ∀ artifact, a.stage = .offering artifact →
      (s.slot.publish artifact a.cancelled).1 =
        (if a.cancelled then .cancelled else .published) ∧
      (artifact.generation < s.slot.floor ∨ artifact.generation ≤ s.slot.stored →
        a.cancelled = true)) := by
  have hs : s.Reachable := ⟨config, sink, text, actions, sent, hsteps⟩
  have hn := hs.numbered
  have ht := hs.tended
  have hnodup := hs.nodup_generations
  have h : TakingTurns s := hturns.invariant (motive := TakingTurns)
    (fun _ hturn hstep hu => hu.step hturn (Step.of_step? hstep)) hsteps
    (takingTurns_ofConfig config sink text)
  have hidle {a : Attempt α} (hf : a.isFinished = false) (hc : a.cancelled = false) :
      a.isIdle = false := by simp [Attempt.isIdle, hf, hc]
  refine ⟨fun a ha hlt hf => ?_, ?_, fun a ha hf hc => ?_, fun a ha artifact hstage => ?_⟩
  · cases hc : a.cancelled with
    | true => rfl
    | false =>
      have hfloor := h.eq_floor ht hn (attempt?_of_mem hnodup ha) (hidle hf hc)
      exact absurd hlt (hfloor ▸ Nat.lt_irrefl _)
  · -- all of them have the same number, and no number is used twice
    have hsub : ((s.attempts.filter fun a => !a.isFinished && !a.cancelled).map
        (·.generation)).Nodup :=
      hnodup.sublist (List.filter_sublist.map _)
    have hall : ∀ g ∈ (s.attempts.filter fun a => !a.isFinished && !a.cancelled).map
        (·.generation), g = s.generation := by
      intro g hg
      obtain ⟨a, ha, rfl⟩ := List.mem_map.1 hg
      simp only [List.mem_filter, Bool.and_eq_true, Bool.not_eq_true'] at ha
      exact h.eq_generation ht (attempt?_of_mem hnodup ha.1) (hidle ha.2.1 ha.2.2)
    rw [List.eq_replicate_of_mem hall, List.nodup_replicate, List.length_map] at hsub
    exact hsub
  · have ha' := attempt?_of_mem hnodup ha
    have hfloor := h.eq_floor ht hn ha' (hidle hf hc)
    refine ⟨h.eq_generation ht ha' (hidle hf hc), hfloor, fun b hb => ?_⟩
    rw [hfloor]
    exact (hn.attempt_le (attempt?_of_mem hnodup hb)).2
  · have hverdict := h.verdict ht hn (attempt?_of_mem hnodup ha) hstage
    refine ⟨(Slot.fst_publish _ _ _).trans hverdict, fun hguard => ?_⟩
    cases hc : a.cancelled with
    | true => rfl
    | false =>
      rw [hc] at hverdict
      obtain ⟨-, hfloor, hstored⟩ := Slot.verdict_eq_published_iff.1 hverdict
      rcases hguard with hbelow | hold
      · exact absurd hfloor (Nat.not_le.2 hbelow)
      · exact absurd hstored (Nat.not_lt.2 hold)

/-- The first run has left an attempt behind that does not heed its token. When the second run has
launched another one, the first attempt is still in the compiler, and it is cancelled. -/
theorem cancelled_before_overtaken_stubborn : ∃ s : Service Nat, ∃ sent,
    (ofConfig { grace := .ofMillis 0 } {} "a" : Service Nat).steps?
      (Action.start :: ([Action.tick, Action.poll 1] ++ List.replicate 6 (Action.proceed 1) ++
          [Action.take 1, Action.stop, Action.tellRun 0, Action.leave 1, Action.graceEnds 1] ++
          List.replicate 4 (Action.proceed 1)) ++
        Action.start :: ([Action.tick, Action.poll 2] ++ List.replicate 6 (Action.proceed 2))) =
      some (s, sent) ∧
    s.slot.floor = 2 ∧ s.attempts.map (·.isFinished) = [false, false] ∧
    (∀ a ∈ s.attempts, a.generation < 2 → a.cancelled = true) ∧
    (s.attempts.filter fun a => !a.isFinished && !a.cancelled).length ≤ 1 := by
  -- both parts are run in one go; what is needed of the states is read off there
  have hrun : ((ofConfig { grace := .ofMillis 0 } {} "a" : Service Nat).steps?
      (Action.start :: ([Action.tick, Action.poll 1] ++ List.replicate 6 (Action.proceed 1) ++
        [Action.take 1, Action.stop, Action.tellRun 0, Action.leave 1, Action.graceEnds 1] ++
        List.replicate 4 (Action.proceed 1)))).bind
      (fun (u, _) => (u.steps? (Action.start :: ([Action.tick, Action.poll 2] ++
          List.replicate 6 (Action.proceed 2)))).map fun (s, _) =>
        ((u.run? u.runs.length).map (·.stage), s.slot.floor, s.attempts.map (·.isFinished))) =
      some (some (.ended (.error (.graceExceeded (.ofMillis 0) 1))), 2, [false, false]) := rfl
  obtain ⟨⟨u, told⟩, hfirst, hrest⟩ := Option.bind_eq_some_iff.1 hrun
  obtain ⟨⟨s, more⟩, hsecond, hseen⟩ := Option.map_eq_some_iff.1 hrest
  obtain ⟨hended, hfloor, hfinished⟩ : _ ∧ _ ∧ _ := by simpa only [Prod.mk.injEq] using hseen
  have hs := steps?_append_eq_some hfirst hsecond
  have hturn : InTurn u Action.start := fun _ _ r hr => by
    rw [hr] at hended
    exact ⟨_, Option.some.inj hended⟩
  obtain ⟨hbelow, hone, -, -⟩ := cancelled_before_overtaken hs
    (.append ⟨fun _ _ _ hr => (nomatch hr), fun _ _ _ => along_inTurn_of_ne (by simp)⟩ hfirst
      ⟨hturn, fun _ _ _ => along_inTurn_of_ne (by simp)⟩)
  refine ⟨s, told ++ more, hs, hfloor, hfinished,
    fun a ha hlt => hbelow a ha (hfloor ▸ hlt) ?_, hone⟩
  have hall : ∀ b ∈ [false, false], b = false := by decide
  exact hall _ (hfinished ▸ List.mem_map_of_mem ha)

end Service

end CompileWatch
