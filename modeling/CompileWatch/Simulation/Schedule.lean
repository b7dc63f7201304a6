import CompileWatch.Service.History
import CompileWatch.Simulation.Request

/-!
# A simulation is a history

Whatever a simulation does to its service, it does by actions of the service: the states it passes
through are reached by histories. Only the two requests that act on the slot from outside are
excepted.
-/
namespace CompileWatch

open Service

namespace Simulation

/-- The simulation `t` comes from `s` by actions of the service. -/
def LeadsTo (s t : Simulation) : Prop := s.service.Reaches t.service

theorem LeadsTo.refl (s : Simulation) : s.LeadsTo s := Reaches.refl _

theorem LeadsTo.trans {s t u : Simulation} (hst : s.LeadsTo t) (htu : t.LeadsTo u) :
    s.LeadsTo u := Reaches.trans hst htu

/-- Two simulations of one service, whatever else is different. -/
theorem LeadsTo.of_service_eq {s t : Simulation} (h : t.service = s.service) : s.LeadsTo t := by
  unfold LeadsTo
  rw [h]
  exact Reaches.refl _

/-- What does not touch the service may come before. -/
theorem LeadsTo.after {s t u : Simulation} (h : t.service = s.service) (htu : t.LeadsTo u) :
    s.LeadsTo u := (LeadsTo.of_service_eq h).trans htu

/-- What does not touch the service may come afterwards. -/
theorem LeadsTo.before {s t u : Simulation} (hst : s.LeadsTo t) (h : u.service = t.service) :
    s.LeadsTo u := hst.trans (.of_service_eq h)

/-- What a simulation performs is a step of its service. -/
theorem exists_of_perform? {s t : Simulation} {a : Action Int64} (h : s.perform? a = some t) :
    ∃ sent, s.service.step? a = some (t.service, sent) := by
  obtain ⟨⟨service, sent⟩, hstep, rfl⟩ := Option.map_eq_some_iff.1 h
  exact ⟨sent, hstep⟩

theorem leadsTo_of_perform? {s t : Simulation} {a : Action Int64} (h : s.perform? a = some t) :
    s.LeadsTo t := by
  obtain ⟨sent, hstep⟩ := exists_of_perform? h
  exact Reaches.of_step hstep

theorem leadsTo_perform (s : Simulation) (a : Action Int64) : s.LeadsTo (s.perform a) := by
  unfold perform
  cases h : s.perform? a with
  | none => exact .refl s
  | some t => exact leadsTo_of_perform? h

theorem leadsTo_repeat {f : Simulation → Simulation} (hf : ∀ s : Simulation, s.LeadsTo (f s))
    (n : Nat) (s : Simulation) : s.LeadsTo (Nat.repeat f n s) := by
  induction n with
  | zero => exact .refl s
  | succ n ih => exact ih.trans (hf _)

theorem leadsTo_foldl {β : Type} {f : Simulation → β → Simulation}
    (hf : ∀ (s : Simulation) (b : β), s.LeadsTo (f s b)) (list : List β) (s : Simulation) :
    s.LeadsTo (list.foldl f s) := by
  induction list generalizing s with
  | nil => exact .refl s
  | cons b rest ih => exact (hf s b).trans (ih _)

theorem leadsTo_performUpTo (n : Nat) (s : Simulation) (a : Action Int64) :
    s.LeadsTo (s.performUpTo n a) := by
  induction n generalizing s with
  | zero => exact .refl s
  | succ n ih =>
    unfold performUpTo
    split
    · exact .refl s
    · next h => exact (leadsTo_of_perform? h).trans (ih _)

/-! ### Waking -/

theorem service_wakeAll (s : Simulation) (p : Task → Bool) :
    (s.wakeAll p).service = s.service := by
  unfold wakeAll
  dsimp only
  split <;> rfl

theorem leadsTo_wake (s : Simulation) (t : Task) : s.LeadsTo (s.wake t) :=
  .of_service_eq (s.service_wakeAll _)

theorem leadsTo_wakeDue (s : Simulation) : s.LeadsTo s.wakeDue :=
  .of_service_eq (s.service_wakeAll _)

theorem leadsTo_wakeStopping (s : Simulation) (g : Generation) : s.LeadsTo (s.wakeStopping g) := by
  unfold wakeStopping
  split
  · exact .refl s
  · split
    · split
      · exact leadsTo_wake s _
      · exact .refl s
    · exact .refl s

/-! ### Turns -/

theorem leadsTo_fillWorkers (fuel : Nat) (s : Simulation) : s.LeadsTo (fillWorkers fuel s) := by
  induction fuel generalizing s with
  | zero => exact .refl s
  | succ fuel ih =>
    unfold fillWorkers
    split
    · exact .refl s
    · next a _ =>
      split
      · refine (leadsTo_perform s (.take a.generation)).trans ?_
        refine (leadsTo_wakeStopping _ a.generation).trans (LeadsTo.trans ?_ (ih _))
        split
        · exact .refl _
        · exact .of_service_eq rfl
      · exact .refl s

theorem leadsTo_supplyWorkers (s : Simulation) : s.LeadsTo s.supplyWorkers :=
  leadsTo_fillWorkers _ s

theorem leadsTo_poll (s : Simulation) (run : Nat) : s.LeadsTo (s.poll run) := by
  unfold poll
  split <;> exact leadsTo_perform s _

theorem leadsTo_runSteps (s : Simulation) (run : Nat) : s.LeadsTo (s.runSteps run) := by
  unfold runSteps
  refine LeadsTo.trans ?_ (leadsTo_supplyWorkers _)
  refine LeadsTo.trans ?_ (leadsTo_performUpTo 9 _ (.proceed run))
  refine LeadsTo.trans ?_ (leadsTo_perform _ (.glance run))
  refine LeadsTo.trans ?_ (leadsTo_perform _ (.graceEnds run))
  refine LeadsTo.trans ?_ (leadsTo_perform _ (.drained run))
  exact (leadsTo_perform s (.leave run)).trans (leadsTo_poll _ run)

theorem leadsTo_runTurn (s : Simulation) (run : Nat) : s.LeadsTo (s.runTurn run) := by
  unfold runTurn
  have h := leadsTo_runSteps s run
  generalize s.runSteps run = after at h ⊢
  dsimp only
  split
  · exact h
  · split
    · exact h.before rfl
    · split <;> exact h.before rfl

theorem leadsTo_retrievalTurn (s : Simulation) (i : Nat) : s.LeadsTo (s.retrievalTurn i) := by
  unfold retrievalTurn
  dsimp only
  have h := (leadsTo_perform s (.wake i)).trans (leadsTo_performUpTo 5 _ (.ask i))
  split
  · exact h.before rfl
  · exact h

theorem leadsTo_letGo (s : Simulation) : s.LeadsTo s.letGo := by
  unfold letGo
  split
  · exact .refl s
  · split
    · exact .refl s
    · next h =>
      dsimp only
      split
      · exact (leadsTo_of_perform? h).before rfl
      · exact (leadsTo_of_perform? h).before (service_wakeAll _ _)

theorem leadsTo_handTurn (s : Simulation) (h : Hand) : s.LeadsTo (s.handTurn h) := by
  unfold handTurn
  dsimp only
  split <;> exact .of_service_eq rfl

theorem leadsTo_turn (s : Simulation) (t : Task) : s.LeadsTo (s.turn t) := by
  cases t with
  | hand h => exact leadsTo_handTurn s h
  | run id => exact leadsTo_runTurn s id
  | retrieval i => exact leadsTo_retrievalTurn s i
  | stop n => exact (leadsTo_perform s (.stopReturns n)).trans (leadsTo_letGo _)

theorem leadsTo_takeTurns (fuel : Nat) (s : Simulation) : s.LeadsTo (takeTurns fuel s) := by
  induction fuel generalizing s with
  | zero => exact .refl s
  | succ fuel ih =>
    unfold takeTurns
    split
    · exact .refl s
    · next t line _ =>
      exact LeadsTo.after (t := { s with line }) rfl ((leadsTo_turn _ t).trans (ih _))

theorem leadsTo_follow (s : Simulation) : s.LeadsTo s.follow := leadsTo_takeTurns _ s

/-! ### Phases -/

theorem leadsTo_closePhase (s : Simulation) : s.LeadsTo s.closePhase := .of_service_eq rfl

theorem leadsTo_finishAttempt (n : Nat) (s : Simulation) (g : Generation) :
    s.LeadsTo (finishAttempt n s g) := by
  induction n generalizing s with
  | zero => exact .refl s
  | succ n ih =>
    unfold finishAttempt
    split
    · exact .refl s
    · next h => exact (leadsTo_of_perform? h).trans ((leadsTo_wakeDue _).trans (ih _))

theorem leadsTo_runJob (s : Simulation) (job : CompileJob) : s.LeadsTo (s.runJob job) := by
  unfold runJob
  dsimp only
  split
  · exact .of_service_eq rfl
  · refine LeadsTo.before (LeadsTo.trans ?_ (leadsTo_supplyWorkers _)) rfl
    refine LeadsTo.trans ?_ (leadsTo_wakeStopping _ _)
    refine LeadsTo.trans ?_ (leadsTo_finishAttempt _ _ _)
    refine LeadsTo.trans ?_ (leadsTo_perform _ _)
    split
    · refine LeadsTo.trans ?_ (leadsTo_perform _ _)
      exact .of_service_eq rfl
    · exact .of_service_eq rfl

theorem leadsTo_runJobs (fuel : Nat) (s : Simulation) : s.LeadsTo (runJobs fuel s) := by
  induction fuel generalizing s with
  | zero => exact .refl s
  | succ fuel ih =>
    unfold runJobs
    split
    · exact .refl s
    · next job _ =>
      exact ((leadsTo_runJob s job).trans (leadsTo_follow _)).trans
        ((leadsTo_closePhase _).trans (ih _))

theorem leadsTo_settle (s : Simulation) : s.LeadsTo s.settle := by
  unfold settle
  dsimp only
  refine LeadsTo.trans ?_ (leadsTo_runJobs _ _)
  refine LeadsTo.trans ?_ (leadsTo_closePhase _)
  exact leadsTo_follow s

theorem leadsTo_tick (s : Simulation) : s.LeadsTo s.tick := by
  unfold tick
  refine LeadsTo.trans ?_ (leadsTo_settle _)
  refine LeadsTo.trans ?_ (leadsTo_wakeDue _)
  exact leadsTo_perform s .tick

theorem leadsTo_tickUntil (done : Simulation → Bool) (fuel : Nat) (s : Simulation) :
    s.LeadsTo (tickUntil done fuel s) := by
  induction fuel generalizing s with
  | zero => exact .refl s
  | succ fuel ih =>
    unfold tickUntil
    split
    · exact .refl s
    · exact (leadsTo_tick s).trans (ih _)

end Simulation

/-- Does the request act on the slot from outside the service? -/
def SimRequest.isOutside : SimRequest → Bool
  | .advance _ | .publish .. => true
  | _ => false

namespace Simulation

/-! ### Requests -/

theorem leadsTo_start (s : Simulation) : s.LeadsTo s.start := by
  unfold start
  dsimp only
  split
  · exact (leadsTo_perform s .start).before rfl
  · exact leadsTo_perform s .start

theorem leadsTo_callForStop (s : Simulation) (n : Nat) : s.LeadsTo (s.callForStop n) := by
  unfold callForStop
  split
  · exact .refl s
  · split
    · exact .of_service_eq rfl
    · exact leadsTo_wake s _

theorem leadsTo_beginStop (s : Simulation) : s.LeadsTo s.beginStop := by
  unfold beginStop
  refine LeadsTo.trans (LeadsTo.before ?_ rfl) (leadsTo_callForStop _ _)
  exact (leadsTo_perform s .stop).trans (leadsTo_perform _ (.tellRun s.service.stops.length))

theorem leadsTo_beginRetrieval (s : Simulation) (label code : String) (timeout : Option Span) :
    s.LeadsTo (s.beginRetrieval label code timeout) := by
  unfold beginRetrieval
  dsimp only
  exact (leadsTo_perform s (.retrieve _ _ _)).before rfl

theorem leadsTo_abort (s : Simulation) (label : String) : s.LeadsTo (s.abort label).2 := by
  have h : ∀ (s : Simulation) (i : Nat), s.LeadsTo (s.perform (.abandon i)) :=
    fun s i => leadsTo_perform s (.abandon i)
  unfold abort
  exact (leadsTo_foldl h _ s).before rfl

theorem leadsTo_act (s : Simulation) (request : SimRequest) (h : request.isOutside = false) :
    s.LeadsTo (s.act request).2 := by
  cases request with
  | set text => exact leadsTo_perform s (.edit text)
  | start => exact leadsTo_start s
  | stop => exact leadsTo_beginStop s
  | beginStop => exact leadsTo_beginStop s
  | release source =>
    simp only [act, release]
    split <;> exact .of_service_eq rfl
  | drop => exact LeadsTo.after (t := { s with held := false }) rfl (leadsTo_letGo _)
  | tick n => exact leadsTo_repeat leadsTo_tick n s
  | beginRetrieval label code timeout =>
    simp only [act]
    exact leadsTo_beginRetrieval s label code timeout
  | retrieve code timeout =>
    simp only [act]
    exact leadsTo_beginRetrieval s waitingLabel code timeout
  | abort label => exact leadsTo_abort s label
  | advance g => cases h
  | publish artifact cancelled => cases h
  | calls | current | find | config | subscriberCount | subscribe | receive | timeout =>
    simp only [act]
    exact .of_service_eq rfl

theorem leadsTo_respond (s : Simulation) (request : SimRequest)
    (h : request.isOutside = false) : s.LeadsTo (s.respond request).2 := by
  unfold respond
  split
  · exact .refl s
  · exact leadsTo_act s request h

theorem leadsTo_waitOut (before s : Simulation) (request : SimRequest) :
    s.LeadsTo (waitOut before s request) := by
  unfold waitOut
  split
  · exact .refl s
  · split
    · exact leadsTo_tickUntil _ _ _
    · exact leadsTo_tickUntil _ _ _
    · exact .refl s

/-- Whatever a simulation is asked, apart from meddling with the slot, the service that it answers
with is reached from the one before by a history. -/
theorem leadsTo_answer (s : Simulation) (request : SimRequest) (h : request.isOutside = false) :
    s.LeadsTo (s.answer request).2 := by
  unfold answer
  dsimp only
  refine LeadsTo.before ?_ (u := completeReport _ _) rfl
  refine LeadsTo.trans ?_ (leadsTo_waitOut _ _ _)
  refine LeadsTo.trans ?_ (leadsTo_settle _)
  exact LeadsTo.after (t := s.clearReport) rfl (leadsTo_respond _ request h)

end Simulation

end CompileWatch
