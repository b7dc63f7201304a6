import CompileWatch.Proofs.Rounds
import Mathlib.Data.List.Perm.Subperm

/-!
# How runs can overlap

A stop empties the handle before the run that it took comes to its end, so that during the grace
time another stop finds nothing to stop and another start makes a new run. What holds in every
history is what each run and each stop does for itself: a run that is held is never joined by
another, a stop that took a run returns after the last word of that run, and no run has more than
one attempt at work that is not cancelled.
-/
namespace CompileWatch

/-- Has the run announced its end? -/
def Run.hasEnded (r : Run) : Bool :=
  match r.stage with
  | .ended _ => true
  | _ => false

theorem Run.hasEnded_eq_true_iff {r : Run} :
    r.hasEnded = true ↔ ∃ result, r.stage = .ended result := by
  unfold Run.hasEnded
  split <;> simp_all

theorem Run.working?_of_hasEnded {r : Run} (h : r.hasEnded = true) : r.working? = none := by
  obtain ⟨result, hs⟩ := Run.hasEnded_eq_true_iff.1 h
  simp [Run.working?, hs]

namespace Service

variable {α : Type} {s t s₀ : Service α} {action : Action α} {actions : List (Action α)}
  {sent told : List Stamped} {id : Nat}

/-! ## Attempts at work -/

/-- No run has two attempts that are neither finished nor cancelled. -/
theorem Reachable.eq_of_run_eq (h : s.Reachable) {a b : Attempt α} (ha : a ∈ s.attempts)
    (hb : b ∈ s.attempts) (hrun : a.run = b.run) (haidle : a.isIdle = false)
    (hbidle : b.isIdle = false) : a = b := by
  have ha' := attempt?_of_mem h.nodup_generations ha
  have hb' := attempt?_of_mem h.nodup_generations hb
  obtain ⟨r, hr⟩ := h.tended.owned ha'
  -- both are the one attempt that the run works with
  have works {c : Attempt α} (hc : s.attempt? c.generation = some c) (hrun : a.run = c.run)
      (hidle : c.isIdle = false) : r.working? = some c.generation := by
    rcases h.tended.idle hc (hrun ▸ hr) with hyes | hworking
    · exact absurd (hidle.symm.trans hyes) Bool.false_ne_true
    · exact hworking
  have hgeneration := (works ha' rfl haidle).symm.trans (works hb' hrun hbidle)
  rw [← Option.some.inj hgeneration] at hb'
  exact Option.some.inj (ha'.symm.trans hb')

/-- Only the newest attempt passes the floor of the slot. -/
theorem Reachable.eq_of_floor_le (h : s.Reachable) {a b : Attempt α} (ha : a ∈ s.attempts)
    (hb : b ∈ s.attempts) (hafloor : s.slot.floor ≤ a.generation)
    (hbfloor : s.slot.floor ≤ b.generation) : a = b := by
  have ha' := attempt?_of_mem h.nodup_generations ha
  have hb' := attempt?_of_mem h.nodup_generations hb
  have hsame : a.generation = b.generation :=
    (Nat.le_antisymm (h.numbered.attempt_le ha').2 hafloor).trans
      (Nat.le_antisymm (h.numbered.attempt_le hb').2 hbfloor).symm
  exact Option.some.inj (ha'.symm.trans (hsame ▸ hb'))

/-- There are at most as many attempts neither finished nor cancelled as there are runs that have
not ended. -/
theorem Reachable.length_live_le (h : s.Reachable) :
    (s.attempts.filter fun a => !a.isIdle).length ≤
      (s.runs.filter fun r => !r.hasEnded).length := by
  have hlive {a : Attempt α} (ha : a ∈ s.attempts.filter fun a => !a.isIdle) :
      a ∈ s.attempts ∧ a.isIdle = false := by
    simpa [List.mem_filter] using ha
  have hnodup : ((s.attempts.filter fun a => !a.isIdle).map (·.run)).Nodup := by
    refine List.Nodup.map_on (fun a ha b hb hrun => ?_) ?_
    · exact h.eq_of_run_eq (hlive ha).1 (hlive hb).1 hrun (hlive ha).2 (hlive hb).2
    · exact (List.Nodup.of_map _ h.nodup_generations).sublist List.filter_sublist
  have hsub : ((s.attempts.filter fun a => !a.isIdle).map (·.run)) ⊆
      (s.runs.filter fun r => !r.hasEnded).map (·.id) := by
    intro id hid
    obtain ⟨a, ha, rfl⟩ := List.mem_map.1 hid
    obtain ⟨hmem, hidle⟩ := hlive ha
    have ha' := attempt?_of_mem h.nodup_generations hmem
    obtain ⟨r, hr⟩ := h.tended.owned ha'
    refine List.mem_map.2 ⟨r, List.mem_filter.2 ⟨List.mem_of_find?_eq_some hr, ?_⟩, id_of_run? hr⟩
    cases hended : r.hasEnded with
    | false => rfl
    | true =>
      rcases h.tended.idle ha' hr with hyes | hworking
      · exact absurd (hidle.symm.trans hyes) Bool.false_ne_true
      · cases (Run.working?_of_hasEnded hended).symm.trans hworking
  have hle := (hnodup.subperm hsub).length_le
  rwa [List.length_map, List.length_map] at hle

/-! ## The last word of a run -/

theorem Speaks.hasEnded {r : Run} (h : Speaks s₀ actions id told r)
    (hword : runEvent .engineStopped id ∈ said id told) : r.hasEnded = true := by
  obtain ⟨rounds, rest, hsaid, -, hround⟩ := h
  have hspoken : runEvent .engineStopped id ∉ spoken id rounds := by
    simp [spoken, roundEvents, opening, supersededEvent, runEvent]
  have hopening (text : String) (superseded : Option Generation) :
      runEvent .engineStopped id ∉ opening id text superseded := by
    simp [opening, supersededEvent, runEvent]
  have hgrace (result : StopResult) : runEvent .engineStopped id ∉ graceReport id result := by
    unfold graceReport
    split <;> simp [runEvent, Event.withElapsed]
  rw [hsaid, List.mem_append] at hword
  have hrest := hword.resolve_left hspoken
  have hadds := hround.adds
  unfold Adds at hadds
  split at hadds
  · next result hs => exact Run.hasEnded_eq_true_iff.2 ⟨result, hs⟩
  · exact absurd (hadds ▸ hrest) (hgrace _)
  · rcases hadds with rfl | ⟨text, superseded, rfl, -⟩
    · cases hrest
    · exact absurd hrest (hopening text superseded)

theorem Speaks.mem_of_ended {r : Run} (h : Speaks s₀ actions id told r) {result : StopResult}
    (hended : r.stage = .ended result) : runEvent .engineStopped id ∈ said id told := by
  obtain ⟨rounds, rest, hsaid, -, hround⟩ := h
  simp only [InRound, hended] at hround
  simp [hsaid, hround, ending]

/-! ## A run that ends well -/

/-- A run that closes well has seen that its attempts are finished. -/
theorem RunStep.closes_well {r r' : Run} (h : RunStep s r action r' t sent)
    (hc : r'.closing? = some (.ok ())) :
    r.closing? = some (.ok ()) ∨ ∀ g a, t.attempt? g = some a → a.run = r.id → a.noted = true := by
  cases h
  case drained hs hnone => exact .inr fun g a ha hrun => noted_of_outstanding hnone ha hrun
  case announceEnd result hs => exact .inl (by simpa [Run.closing?, hs] using hc)
  all_goals simp_all [Run.closing?]

theorem RunStep.closing?_of_launching {r r' : Run} (h : RunStep s r action r' t sent)
    {text : String} {g : Generation} (hs : r.stage = .launching text g) : r'.closing? = none := by
  cases h
  all_goals simp_all [Run.closing?]

/-- All attempts of a run that closes well are finished. -/
theorem Reachable.isFinished_of_closing (h : s.Reachable) {r : Run} {g : Generation}
    {a : Attempt α} (hr : s.run? id = some r) (hc : r.closing? = some (.ok ()))
    (ha : s.attempt? g = some a) (hrun : a.run = id) : a.isFinished = true := by
  obtain ⟨config, sink, text, hs⟩ := h
  refine hs.induct_reached (motive := fun u => ∀ r g a, u.run? id = some r →
      r.closing? = some (.ok ()) → u.attempt? g = some a → a.run = id → a.isFinished = true)
    (fun {u v action sent} hu ih hone r' g a' hr' hc' ha' hrun => ?_)
    (fun _ _ _ hr => nomatch hr) r g a hr hc ha hrun
  have hstep := Step.of_step? hone
  have hv : v.Reachable := ⟨config, sink, text, hu.trans (.of_step hone)⟩
  have old {r : Run} (hr : u.run? id = some r) (hc : r.closing? = some (.ok ())) :
      a'.isFinished = true := by
    rcases hstep.attempt? g with hrel | ⟨r₀, r₁, text, hlaunch, hr₁, hstage, -, hnew⟩
    · rw [ha'] at hrel
      obtain ⟨a, ha, hchange⟩ := exists_of_rel_some hrel
      exact hchange.isFinished (ih r g a hr hc ha (hchange.identity.2.1 ▸ hrun))
    · -- a run that closes launches nothing
      rw [ha'] at hnew
      cases hnew
      cases hrun
      cases hr'.symm.trans hr₁
      cases (hlaunch.closing?_of_launching hstage).symm.trans hc'
  rcases hstep.run? id with hsame | ⟨r, hr, htold⟩ | ⟨r, r₁, rfl, hr, hr₁, hrunstep⟩ | ⟨-, -, hnew⟩
  · exact old (hsame ▸ hr') hc'
  · cases hr'.symm.trans htold
    exact old hr hc'
  · cases hr'.symm.trans hr₁
    rcases hrunstep.closes_well hc' with hold | hnoted
    · exact old hr hold
    · exact hv.tended.noted ha' (hnoted g a' ha' hrun)
  · cases hr'.symm.trans hnew
    cases hc'

/-! ## Starts and stops -/

/-- A start changes nothing while a run is held whose loop has not died. -/
theorem Reachable.start_of_held (h : s.Reachable) {r : Run} (hheld : s.handle = some id)
    (hr : s.run? id = some r) (halive : r.isDead = false)
    (hstep : s.step? .start = some (t, sent)) : t = s ∧ sent = [] := by
  cases hrun : s.isRunning with
  | false =>
    have hdead := h.custody.isDead hrun hheld hr
    exact absurd (halive.symm.trans hdead) Bool.false_ne_true
  | true =>
    cases Step.of_step? hstep with
    | startAgain _ => exact ⟨rfl, rfl⟩
    | start hnot => exact absurd (hnot.symm.trans hrun) Bool.false_ne_true
    | run _ h => cases h
    | attempt _ h => cases h

/-- A start that makes a run comes after the newest run was taken by a stop, or has died. -/
theorem Reachable.start_of_sent (h : s.Reachable) (hstep : s.step? .start = some (t, sent))
    (hsent : sent ≠ []) :
    sent.map (·.event) = [runEvent .engineStarted (s.runs.length + 1)] ∧
      t.handle = some (s.runs.length + 1) ∧
      ∀ r, s.run? s.runs.length = some r → s.runs.length ∈ s.takenRuns ∨ r.isDead = true := by
  have howned := owned_of_start hstep
  cases Step.of_step? hstep with
  | startAgain _ => exact absurd rfl hsent
  | start hrun =>
    refine ⟨rfl, rfl, fun r hr => ?_⟩
    rcases h.custody.given hr with hheld | htook | hdropped | hdead
    · exact .inr (h.custody.isDead hrun hheld hr)
    · exact .inl htook
    · exact absurd (hdropped.symm.trans howned) Bool.false_ne_true
    · exact .inr hdead
  | run _ h => cases h
  | attempt _ h => cases h

/-- A stop takes the held run, which no other one has taken, or returns at once. -/
theorem Reachable.stop_cases (h : s.Reachable) (hstep : s.step? .stop = some (t, sent)) :
    sent = [] ∧
      ((s.handle = none ∧
        t = { s with stops := s.stops ++ [⟨none, s.now, .returned (.ok ()) 0⟩] }) ∨
      ∃ id, s.handle = some id ∧ id ∉ s.takenRuns ∧
        t = { s with handle := none, stops := s.stops ++ [⟨some id, s.now, .taken⟩] }) := by
  cases Step.of_step? hstep with
  | stopNone hnone => exact ⟨rfl, .inl ⟨hnone, rfl⟩⟩
  | @stop id hsome =>
    exact ⟨rfl, .inr ⟨id, hsome, fun hmem => (h.custody.took hmem).2 hsome, rfl⟩⟩
  | run _ h => cases h
  | attempt _ h => cases h

/-- A stop that took a run returns what the run came to. -/
theorem Reachable.ended_of_returned (h : s.Reachable) {call : StopCall} {waited : Nat}
    {result : StopResult} (hcall : call ∈ s.stops) (hrun : call.run = some id)
    (hreturned : call.stage = .returned result waited) :
    ∃ r, s.run? id = some r ∧
      (r.stage = .ended result ∨ ∃ reason, result = .error (.supervisorPanicked reason)) := by
  obtain ⟨n, hn⟩ := List.mem_iff_getElem?.1 hcall
  obtain ⟨r, hr, hresult⟩ := h.resulting.returned hn hrun hreturned
  refine ⟨r, hr, ?_⟩
  unfold Run.result? at hresult
  split at hresult
  · next hended => cases hresult; exact .inl hended
  · next reason _ => cases hresult; exact .inr ⟨reason, rfl⟩
  · cases hresult

/-- What starts, stops and attempts of different runs can rely on, however the runs overlap. -/
structure KeptApart (s : Service α) (sent : List Stamped) : Prop where
  /-- No run is started beside a run that is held and has not died. -/
  start_held {id : Nat} {r : Run} {t : Service α} {told : List Stamped} : s.handle = some id →
    s.run? id = some r → r.isDead = false → s.step? .start = some (t, told) → t = s ∧ told = []
  /-- A run is started only after the run before it was taken by a stop, or has died. -/
  start_next {t : Service α} {told : List Stamped} : s.step? .start = some (t, told) →
    told ≠ [] → told.map (·.event) = [runEvent .engineStarted (s.runs.length + 1)] ∧
      t.handle = some (s.runs.length + 1) ∧
      ∀ r, s.run? s.runs.length = some r → s.runs.length ∈ s.takenRuns ∨ r.isDead = true
  /-- No two stops take the same run, and a stop that finds none returns at once. -/
  stop {t : Service α} {told : List Stamped} : s.step? .stop = some (t, told) → told = [] ∧
    ((s.handle = none ∧
      t = { s with stops := s.stops ++ [⟨none, s.now, .returned (.ok ()) 0⟩] }) ∨
    ∃ id, s.handle = some id ∧ id ∉ s.takenRuns ∧
      t = { s with handle := none, stops := s.stops ++ [⟨some id, s.now, .taken⟩] })
  /-- A stop that took a run returns after the last word of that run, unless the run died. -/
  returned {call : StopCall} {id waited : Nat} {result : StopResult} : call ∈ s.stops →
    call.run = some id → call.stage = .returned result waited →
    runEvent .engineStopped id ∈ said id sent ∨
      ∃ reason, result = .error (.supervisorPanicked reason)
  /-- If it returns that all went well, all attempts of that run are finished for good. -/
  returned_ok {call : StopCall} {id waited : Nat} {t : Service α} {a : Attempt α} :
    call ∈ s.stops → call.run = some id → call.stage = .returned (.ok ()) waited →
    s.Reaches t → a ∈ t.attempts → a.run = id → a.isFinished = true
  /-- After the last word of a run all its attempts are finished or cancelled for good. -/
  stopped {id : Nat} {t : Service α} {a : Attempt α} : runEvent .engineStopped id ∈ said id sent →
    s.Reaches t → a ∈ t.attempts → a.run = id → a.isIdle = true
  /-- At most one attempt of each run is neither finished nor cancelled. -/
  one_each {a b : Attempt α} : a ∈ s.attempts → b ∈ s.attempts → a.run = b.run →
    a.isIdle = false → b.isIdle = false → a = b
  /-- So there are at most as many as there are runs that have not ended, -/
  live_le : (s.attempts.filter fun a => !a.isIdle).length ≤
    (s.runs.filter fun r => !r.hasEnded).length
  /-- and at most one that the floor of the slot lets pass. -/
  one_passes {a b : Attempt α} : a ∈ s.attempts → b ∈ s.attempts →
    s.slot.floor ≤ a.generation → s.slot.floor ≤ b.generation → a = b

/-- Whatever starts and stops are called in a history, and from wherever: a run is not joined by
another as long as it is held, and it is taken by one stop only, which returns after the last word
of the run. A stop that returns that all went well leaves no attempt of its run behind. At most one
attempt of each run is at work without being cancelled, and at most one of all passes the floor of
the slot. -/
theorem overlapping_runs_kept_apart {config : Config} {sink : MessageSink} {text : String}
    (hsteps : (ofConfig config sink text : Service α).steps? actions = some (s, sent)) :
    KeptApart s sent := by
  have hs₀ : (ofConfig config sink text : Service α).Reachable :=
    ⟨config, sink, text, .refl _⟩
  have hs : s.Reachable := ⟨config, sink, text, actions, sent, hsteps⟩
  have hspeaks (id : Nat) := (speaks_of_steps? hs₀ rfl hsteps id).2
  refine
    { start_held := hs.start_of_held
      start_next := hs.start_of_sent
      stop := hs.stop_cases
      returned := ?_
      returned_ok := ?_
      stopped := ?_
      one_each := hs.eq_of_run_eq
      live_le := hs.length_live_le
      one_passes := hs.eq_of_floor_le }
  · intro call id waited _ hcall hrun hreturned
    obtain ⟨r, hr, hended | hpanicked⟩ := hs.ended_of_returned hcall hrun hreturned
    · exact .inl ((hspeaks id r hr).mem_of_ended hended)
    · exact .inr hpanicked
  · intro call id waited t a hcall hrun hreturned hst ha harun
    obtain ⟨r, hr, hended | ⟨reason, hpanicked⟩⟩ := hs.ended_of_returned hcall hrun hreturned
    · have ht := hs.reaches hst
      obtain ⟨r', hr', hended'⟩ := hst.run_ended hr hended
      exact ht.isFinished_of_closing hr' (by simp [Run.closing?, hended'])
        (attempt?_of_mem ht.nodup_generations ha) harun
    · cases hpanicked
  · intro id t a hword hst ha hrun
    cases hr : s.run? id with
    | none =>
      have hnothing := (speaks_of_steps? hs₀ rfl hsteps id).1 hr
      rw [hnothing] at hword
      cases hword
    | some r =>
      obtain ⟨result, hended⟩ := Run.hasEnded_eq_true_iff.1 ((hspeaks id r hr).hasEnded hword)
      have ha' := attempt?_of_mem (hs.reaches hst).nodup_generations ha
      exact hs.isIdle_of_ended hst hr hended ha' hrun

/-- The first run is stopped while its attempt is inside the compiler, and waits for it. -/
def drainingRun : List (Action Nat) :=
  [Action.start, Action.tick, Action.poll 1] ++ List.replicate 6 (Action.proceed 1) ++
    [Action.take 1, Action.stop, Action.tellRun 0, Action.leave 1]

/-- A second run makes an attempt for a new text. -/
def secondRun : List (Action Nat) :=
  [Action.edit "b", Action.tick, Action.poll 2] ++ List.replicate 6 (Action.proceed 2)

/-- A second stop and a second start come while the first run waits for its attempt. -/
theorem overlapping_runs_kept_apart_draining : ∃ s : Service Nat, ∃ sent,
    (ofConfig {} {} "a").steps? (drainingRun ++ [Action.stop, Action.start] ++ secondRun) =
      some (s, sent) ∧
    s.attempts.map (·.isIdle) = [false, false] ∧ KeptApart s sent := by
  have hrun : ((ofConfig {} {} "a").steps?
      (drainingRun ++ [Action.stop, Action.start] ++ secondRun)).map
      (fun (s, _) => s.attempts.map (·.isIdle)) = some [false, false] := by
    with_unfolding_all exact rfl
  obtain ⟨⟨s, sent⟩, hsteps, hidle⟩ := Option.map_eq_some_iff.1 hrun
  exact ⟨s, sent, hsteps, hidle, overlapping_runs_kept_apart hsteps⟩

/-- While the first run waits for its attempt, a second stop returns that all is well, and a second
run is started. The attempt of the first run is still able to publish, and when the second run has
made an attempt, both are at work and neither is cancelled. -/
theorem runs_overlap_while_draining : ∃ s t u v : Service Nat, ∃ sent more first second,
    (ofConfig {} {} "a").steps? drainingRun = some (s, sent) ∧
    s.stops.map (·.run) = [some 1] ∧ (s.run? 1).map (·.stage) = some (.draining 1) ∧
    s.steps? [.stop, .start] = some (t, more) ∧
    t.stops[1]? = some ⟨none, 1, .returned (.ok ()) 0⟩ ∧
    more.map (·.event) = [runEvent .engineStarted 2] ∧
    runEvent .engineStopped 1 ∉ said 1 (sent ++ more) ∧
    t.steps? [.compiled 1 (.value 5), .finish 1] = some (u, first) ∧ u.slot.stored = 1 ∧
    t.steps? secondRun = some (v, second) ∧
    (v.attempts.filter fun a => !a.isIdle).map (·.run) = [1, 2] :=
  ⟨_, _, _, _, _, _, _, _, rfl, rfl, rfl, rfl, rfl, rfl, by decide, rfl, rfl, rfl, rfl⟩

end Service

end CompileWatch
