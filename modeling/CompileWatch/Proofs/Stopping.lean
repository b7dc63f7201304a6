import CompileWatch.Proofs.SlotOrder

/-!
# A stopped run publishes nothing

A run cancels only the one attempt that it remembers as the previous one. That is enough, since all
other attempts that it ever started are finished or were cancelled before: `Tended` says so of all
runs at all times. When a run comes to its end, either all its attempts are finished, or the one
that it remembered has been cancelled with the rest, so that the slot takes none of them any more.
-/
namespace CompileWatch

/-- The only attempt of a run that may be at work without being cancelled. -/
def Run.working? (r : Run) : Option Generation :=
  match r.stage with
  | .waiting _ | .noticed _ | .looking _ | .draining _ | .overdue _ | .dead _ => r.previous
  | .cancelling _ g => some g
  | _ => none

/-- Does the attempt have nothing more to give to the slot, being finished or cancelled? -/
def Attempt.isIdle {α : Type} (a : Attempt α) : Bool := a.isFinished || a.cancelled

/-- The result that a run closes or has closed with. -/
def Run.closing? (r : Run) : Option StopResult :=
  match r.stage with
  | .closing result | .ended result => some result
  | _ => none

/-- Can a stop come to this without the source text ever being unreadable? -/
def Config.Admits (c : Config) (result : StopResult) : Prop :=
  result = .ok () ∨ ∃ abandoned, result = .error (.graceExceeded c.grace abandoned)

namespace Service

variable {α : Type} {s t : Service α} {action : Action α} {sent : List Stamped}

/-! ## All attempts but one are idle -/

theorem Change.isFinished {a a' : Attempt α} (h : Change s a a') (hf : a.isFinished = true) :
    a'.isFinished = true := by
  unfold Attempt.isFinished at hf
  split at hf
  · next hstage => simp [Attempt.isFinished, h.finished hstage]
  · cases hf

theorem Change.isIdle {a a' : Attempt α} (h : Change s a a') (hi : a.isIdle = true) :
    a'.isIdle = true := by
  unfold Attempt.isIdle at hi ⊢
  rcases Bool.or_eq_true_iff.1 hi with hf | hc
  · simp [h.isFinished hf]
  · simp [h.cancelled hc]

/-- Only the end of a finished attempt is noted. -/
theorem Change.noted {a a' : Attempt α} (h : Change s a a')
    (ha : a.noted = true → a.isFinished = true) (hn : a'.noted = true) : a'.isFinished = true := by
  have kept (hnoted : a'.noted = a.noted) : a'.isFinished = true :=
    h.isFinished (ha (hnoted ▸ hn))
  cases h with
  | touch h =>
    cases h with
    | note hf => exact hf
    | _ => exact kept rfl
  | take _ =>
    refine kept ?_
    unfold taken
    split <;> rfl
  | answer _ => exact kept rfl
  | move h => cases h <;> exact kept rfl

/-- What holds of the attempts of all runs at all times. -/
structure Tended (s : Service α) : Prop where
  /-- The run of an attempt is there. -/
  owned {g : Generation} {a : Attempt α} : s.attempt? g = some a → ∃ r, s.run? a.run = some r
  /-- A run notes only the ends of attempts that are finished. -/
  noted {g : Generation} {a : Attempt α} : s.attempt? g = some a → a.noted = true →
    a.isFinished = true
  /-- All attempts of a run are idle but the one that it works with. -/
  idle {g : Generation} {a : Attempt α} {r : Run} : s.attempt? g = some a →
    s.run? a.run = some r → a.isIdle = true ∨ r.working? = some g

/-- A run that waits for nothing more has noted the ends of all its attempts. -/
theorem noted_of_outstanding {id : Nat} (h : s.outstanding id = []) {g : Generation}
    {a : Attempt α} (ha : s.attempt? g = some a) (hrun : a.run = id) : a.noted = true := by
  have hall := List.filter_eq_nil_iff.1 h a (mem_of_attempt? ha)
  simpa [hrun] using hall

theorem isFinished_of_attempt? {g : Generation} {a : Attempt α} (ha : s.attempt? g = some a)
    (hf : s.isFinished g = true) : a.isFinished = true := by
  simpa [isFinished, ha] using hf

/-- A run does not disappear. -/
theorem Step.exists_run? (h : Step s action t sent) {k : Nat} {r : Run} (hr : s.run? k = some r) :
    ∃ r', t.run? k = some r' := by
  rcases h.run? k with hsame | ⟨r₀, -, htold⟩ | ⟨r₀, r₁, -, -, hr₁, -⟩ | ⟨-, hnone, -⟩
  · exact ⟨r, hsame.trans hr⟩
  · exact ⟨_, htold⟩
  · exact ⟨r₁, hr₁⟩
  · rw [hr] at hnone
    cases hnone

/-- A run that gives an attempt up has seen that it is finished, or has cancelled it. -/
theorem RunStep.idle {r r' : Run} (h : RunStep s r action r' t sent) (hs : Tended s)
    {g : Generation} {a a' : Attempt α} (ha : s.attempt? g = some a)
    (ha' : t.attempt? g = some a') (hrun : a.run = r.id) (hw : r.working? = some g) :
    a'.isIdle = true ∨ r'.working? = some g := by
  have hchange : Change s a a' := by
    rcases h.attempt? g with hrel | ⟨-, -, hnone, -⟩
    · rw [ha, ha'] at hrel
      cases hrel with
      | some htouch => exact .touch htouch
    · rw [ha] at hnone
      cases hnone
  cases h
  case drained hstage hnone =>
    have hnoted : a'.noted = true :=
      noted_of_outstanding hnone ha' (hchange.identity.2.1.trans hrun)
    exact .inl (by simp [Attempt.isIdle, hchange.noted (hs.noted ha) hnoted])
  case forget text hstage hfinished =>
    have hprevious : r.previous = some g := by simpa [Run.working?, hstage] using hw
    have hf := isFinished_of_attempt? ha (hfinished g hprevious)
    exact .inl (by simp [Attempt.isIdle, hchange.isFinished hf])
  case cancel text k hstage =>
    -- the token of the attempt is cancelled in this very step
    have hk : k = g := by simpa [Run.working?, hstage] using hw
    subst hk
    rw [attempt?_moveRun, attempt?_cancelAttempt, if_pos rfl, ha] at ha'
    cases ha'
    exact .inl (by simp [Attempt.isIdle])
  case cancelLast n k hstage hprevious =>
    have hk : k = g := by simpa [Run.working?, hstage, hprevious] using hw
    subst hk
    rw [attempt?_moveRun, attempt?_cancelAttempt, if_pos rfl, ha] at ha'
    cases ha'
    exact .inl (by simp [Attempt.isIdle])
  all_goals simp_all [Run.working?]

theorem RunStep.working?_of_launching {r r' : Run} (h : RunStep s r action r' t sent)
    {text : String} {g : Generation} (hs : r.stage = .launching text g) :
    r'.working? = some g := by
  cases h
  all_goals simp_all [Run.working?]

theorem Tended.owned_step (h : Tended s) (hstep : Step s action t sent) {g : Generation}
    {a' : Attempt α} (ha' : t.attempt? g = some a') : ∃ r, t.run? a'.run = some r := by
  rcases hstep.attempt? g with hrel | ⟨r, r', text, -, hr', -, -, hnew⟩
  · rw [ha'] at hrel
    obtain ⟨a, ha, hchange⟩ := exists_of_rel_some hrel
    obtain ⟨r, hr⟩ := h.owned ha
    rw [hchange.identity.2.1]
    exact hstep.exists_run? hr
  · rw [ha'] at hnew
    cases hnew
    exact ⟨r', hr'⟩

theorem Tended.noted_step (h : Tended s) (hstep : Step s action t sent) {g : Generation}
    {a' : Attempt α} (ha' : t.attempt? g = some a') (hn : a'.noted = true) :
    a'.isFinished = true := by
  rcases hstep.attempt? g with hrel | ⟨r, r', text, -, -, -, -, hnew⟩
  · rw [ha'] at hrel
    obtain ⟨a, ha, hchange⟩ := exists_of_rel_some hrel
    exact hchange.noted (h.noted ha) hn
  · rw [ha'] at hnew
    cases hnew
    cases hn

theorem Tended.idle_step (h : Tended s) (hstep : Step s action t sent) {g : Generation}
    {a' : Attempt α} {r' : Run} (ha' : t.attempt? g = some a') (hr' : t.run? a'.run = some r') :
    a'.isIdle = true ∨ r'.working? = some g := by
  rcases hstep.attempt? g with hrel | ⟨r, r'', text, hlaunch, hr'', hstage, -, hnew⟩
  · rw [ha'] at hrel
    obtain ⟨a, ha, hchange⟩ := exists_of_rel_some hrel
    obtain ⟨r, hr⟩ := h.owned ha
    rw [hchange.identity.2.1] at hr'
    rcases h.idle ha hr with hidle | hworking
    · exact .inl (hchange.isIdle hidle)
    · -- the attempt that the run works with: only the run itself can give it up
      rcases hstep.run? a.run with hsame | ⟨r₀, hr₀, htold⟩ | ⟨r₀, r₁, hid, hr₀, hr₁, hrun⟩ |
        ⟨-, hnone, -⟩
      · rw [hsame, hr] at hr'
        cases hr'
        exact .inr hworking
      · rw [htold] at hr'
        rw [hr] at hr₀
        cases hr'
        cases hr₀
        exact .inr hworking
      · rw [hr₁] at hr'
        rw [hr] at hr₀
        cases hr'
        cases hr₀
        exact hrun.idle h ha ha' hid.symm hworking
      · rw [hr] at hnone
        cases hnone
  · rw [ha'] at hnew
    cases hnew
    rw [hr''] at hr'
    cases hr'
    exact .inr (hlaunch.working?_of_launching hstage)

theorem Tended.step (h : Tended s) (hstep : Step s action t sent) : Tended t where
  owned := h.owned_step hstep
  noted := h.noted_step hstep
  idle := h.idle_step hstep

theorem tended_ofConfig (config : Config) (sink : MessageSink) (text : String) :
    Tended (ofConfig config sink text : Service α) where
  owned h := nomatch h
  noted h := nomatch h
  idle h := nomatch h

theorem Reachable.tended (h : s.Reachable) : Tended s := by
  obtain ⟨config, sink, text, hs⟩ := h
  exact hs.induct (fun hu hstep => hu.step (Step.of_step? hstep)) (tended_ofConfig config sink text)

/-! ## The result of a run -/

theorem RunStep.frame {r r' : Run} (h : RunStep s r action r' t sent) :
    t.config = s.config ∧ t.stops = s.stops := by
  cases h <;> exact ⟨rfl, rfl⟩

theorem AttemptStep.frame {a a' : Attempt α} (h : AttemptStep s a action a' t sent) :
    t.config = s.config ∧ t.stops = s.stops := by
  cases h with
  | move _ => rw [afterMove_eq]; exact ⟨rfl, rfl⟩
  | _ => exact ⟨rfl, rfl⟩

theorem Step.config (h : Step s action t sent) : t.config = s.config := by
  cases h with
  | run _ h => exact h.frame.1
  | attempt _ h => exact h.frame.1
  | _ => rfl

/-- A run closes well when its attempts are finished or the grace time is over. -/
theorem RunStep.closing? {r r' : Run} (h : RunStep s r action r' t sent) {result : StopResult}
    (hc : r'.closing? = some result) : r.closing? = some result ∨ s.config.Admits result := by
  cases h
  case drained hstage _ =>
    simp only [Run.closing?, Option.some.injEq] at hc
    exact .inr (.inl hc.symm)
  case announceGrace n hstage =>
    simp only [Run.closing?, Option.some.injEq] at hc
    exact .inr (.inr ⟨n, hc.symm⟩)
  case announceEnd result' hstage => exact .inl (by simpa [Run.closing?, hstage] using hc)
  all_goals simp_all [Run.closing?]

/-- A run that is over does nothing any more. -/
theorem RunStep.result?_eq_none {r r' : Run} (h : RunStep s r action r' t sent) :
    r.result? = none := by
  cases h <;> simp [Run.result?, *]

theorem Step.stage_of_result? (h : Step s action t sent) {id : Nat} {r : Run}
    {result : StopResult} (hr : s.run? id = some r) (hresult : r.result? = some result) :
    ∃ r', t.run? id = some r' ∧ r'.stage = r.stage := by
  rcases h.run? id with hsame | ⟨r₀, hr₀, htold⟩ | ⟨r₀, r₁, -, hr₀, -, hrun⟩ | ⟨-, hnone, -⟩
  · exact ⟨r, hsame.trans hr, rfl⟩
  · rw [hr] at hr₀
    cases hr₀
    exact ⟨_, htold, rfl⟩
  · rw [hr] at hr₀
    cases hr₀
    rw [hrun.result?_eq_none] at hresult
    cases hresult
  · rw [hr] at hnone
    cases hnone

theorem result?_of_stage {r r' : Run} (h : r'.stage = r.stage) : r'.result? = r.result? := by
  unfold Run.result?
  rw [h]

/-- A stop returned before a step, or it has just returned what its run came to. -/
theorem Step.returned (h : Step s action t sent) {n id waited : Nat} {call : StopCall}
    {result : StopResult} (hcall : t.stops[n]? = some call) (hrun : call.run = some id)
    (hstage : call.stage = .returned result waited) :
    s.stops[n]? = some call ∨ ∃ r, s.run? id = some r ∧ r.result? = some result := by
  cases h with
  | run _ h => exact .inl (by rwa [h.frame.2] at hcall)
  | attempt _ h => exact .inl (by rwa [h.frame.2] at hcall)
  | stopNone _ | stop _ =>
    simp only [List.getElem?_append] at hcall
    split at hcall
    · exact .inl hcall
    · obtain rfl := List.mem_singleton.1 (List.mem_of_getElem? hcall)
      cases hrun <;> cases hstage
  | @tellRun m id' call' hcall' _ _ =>
    simp only [moveStop, List.getElem?_set] at hcall
    split at hcall
    · next hm =>
      split at hcall
      · cases hcall; cases hstage
      · cases hcall
    · exact .inl hcall
  | @stopReturns m id' call' r result' hcall' _ hrun' hr hresult =>
    simp only [moveStop, List.getElem?_set] at hcall
    split at hcall
    · split at hcall
      · cases hcall
        cases hstage
        rw [hrun'] at hrun
        cases hrun
        exact .inr ⟨r, hr, hresult⟩
      · cases hcall
    · exact .inl hcall
  | _ => exact .inl hcall

/-- What holds of the results of runs and stops at all times. -/
structure Resulting (s : Service α) : Prop where
  /-- A run that closes does so because its attempts are finished or the grace time is over. -/
  closing {id : Nat} {r : Run} {result : StopResult} : s.run? id = some r →
    r.closing? = some result → s.config.Admits result
  /-- A stop returns what its run came to. -/
  returned {n id waited : Nat} {call : StopCall} {result : StopResult} :
    s.stops[n]? = some call → call.run = some id → call.stage = .returned result waited →
    ∃ r, s.run? id = some r ∧ r.result? = some result

theorem Resulting.step (h : Resulting s) (hstep : Step s action t sent) : Resulting t where
  closing {id r result} hr hc := by
    rw [hstep.config]
    rcases hstep.run? id with hsame | ⟨r₀, hr₀, htold⟩ | ⟨r₀, r₁, -, hr₀, hr₁, hrun⟩ | ⟨-, -, hnew⟩
    · exact h.closing (hsame ▸ hr) hc
    · rw [hr] at htold
      cases htold
      exact h.closing hr₀ hc
    · rw [hr] at hr₁
      cases hr₁
      rcases hrun.closing? hc with hold | hadmits
      · exact h.closing hr₀ hold
      · exact hadmits
    · rw [hr] at hnew
      cases hnew
      cases hc
  returned {n id waited call result} hcall hrun hstage := by
    obtain ⟨r, hr, hresult⟩ : ∃ r, s.run? id = some r ∧ r.result? = some result := by
      rcases hstep.returned hcall hrun hstage with hold | hnow
      · exact h.returned hold hrun hstage
      · exact hnow
    obtain ⟨r', hr', hsame⟩ := hstep.stage_of_result? hr hresult
    exact ⟨r', hr', (result?_of_stage hsame).trans hresult⟩

theorem resulting_ofConfig (config : Config) (sink : MessageSink) (text : String) :
    Resulting (ofConfig config sink text : Service α) where
  closing h := nomatch h
  returned h := nomatch h

theorem Reachable.resulting (h : s.Reachable) : Resulting s := by
  obtain ⟨config, sink, text, hs⟩ := h
  exact hs.induct (fun hu hstep => hu.step (Step.of_step? hstep))
    (resulting_ofConfig config sink text)

/-- A run dies only of a look at a source text that cannot be read. -/
theorem pollFails_mem_of_dead {actions : List (Action α)} {id : Nat} {reason : String} {r : Run}
    (hsteps : s.steps? actions = some (t, sent))
    (halive : ∀ r, s.run? id = some r → r.stage ≠ .dead reason)
    (hr : t.run? id = some r) (hdead : r.stage = .dead reason) :
    .pollFails id reason ∈ actions := by
  induction actions generalizing s sent with
  | nil =>
    cases hsteps
    exact absurd hdead (halive r hr)
  | cons a rest ih =>
    obtain ⟨u, first, more, hone, hrest⟩ := steps?_cons_eq_some hsteps
    by_cases hu : ∀ r, u.run? id = some r → r.stage ≠ .dead reason
    · exact List.mem_cons_of_mem a (ih hrest hu)
    · obtain ⟨r', hr', hdead'⟩ : ∃ r', u.run? id = some r' ∧ r'.stage = .dead reason := by
        simpa using hu
      rcases (Step.of_step? hone).run? id with hsame | ⟨r₀, hr₀, htold⟩ |
        ⟨r₀, r₁, hid, hr₀, hr₁, hrun⟩ | ⟨-, -, hnew⟩
      · exact absurd hdead' (halive r' (hsame ▸ hr'))
      · rw [hr'] at htold
        cases htold
        exact absurd hdead' (halive r₀ hr₀)
      · rw [hr'] at hr₁
        cases hr₁
        subst hid
        cases hrun
        case die hstage =>
          cases hdead'
          exact List.mem_cons_self
        all_goals simp_all
      · rw [hr'] at hnew
        cases hnew
        cases hdead'

/-! ## Idle attempts and the slot -/

/-- An attempt that is finished or cancelled does not change the slot. -/
theorem Step.slot_of_isIdle (h : Step s action t sent) {g : Generation} {a : Attempt α}
    (hactor : actor? action = some g) (ha : s.attempt? g = some a) (hidle : a.isIdle = true) :
    t.slot = s.slot := by
  have haccepted : s.accepted? action = none := by
    refine Option.eq_none_iff_forall_ne_some.2 fun artifact hacc => ?_
    obtain ⟨k, b, rfl, hb, hstage, hv⟩ := accepted?_eq_some_iff.1 hacc
    cases hactor
    rw [ha] at hb
    cases hb
    have hcancelled := (Slot.verdict_eq_published_iff.1 hv).1
    simp [Attempt.isIdle, Attempt.isFinished, hstage, hcancelled] at hidle
  have hraised : s.raised? action = none := by
    cases action with
    | proceed id => cases hactor
    | _ => rfl
  obtain ⟨hlatest, hfloor⟩ := h.slot
  rw [haccepted, Option.none_or] at hlatest
  rw [hraised, Option.map_none, Option.getD_none, Nat.max_zero] at hfloor
  show Slot.mk t.slot.latest t.slot.floor = Slot.mk s.slot.latest s.slot.floor
  rw [hlatest, hfloor]

/-- A run that has ended stays so, with the same result. -/
theorem Reaches.run_ended (h : s.Reaches t) {id : Nat} {r : Run} {result : StopResult}
    (hr : s.run? id = some r) (hended : r.stage = .ended result) :
    ∃ r', t.run? id = some r' ∧ r'.stage = .ended result := by
  refine h.induct (motive := fun u => ∃ r', u.run? id = some r' ∧ r'.stage = .ended result)
    (fun {u v a sent} hu hstep => ?_) ⟨r, hr, hended⟩
  obtain ⟨r₁, hr₁, hended₁⟩ := hu
  have hresult : r₁.result? = some result := by simp [Run.result?, hended₁]
  obtain ⟨r₂, hr₂, hsame⟩ := (Step.of_step? hstep).stage_of_result? hr₁ hresult
  exact ⟨r₂, hr₂, hsame.trans hended₁⟩

/-- Once a run has ended, all its attempts are idle for good. -/
theorem Reachable.isIdle_of_ended (hs : s.Reachable) (hst : s.Reaches t) {id : Nat} {r : Run}
    {result : StopResult} (hr : s.run? id = some r) (hended : r.stage = .ended result)
    {g : Generation} {a : Attempt α} (ha : t.attempt? g = some a) (hrun : a.run = id) :
    a.isIdle = true := by
  obtain ⟨r', hr', hended'⟩ := hst.run_ended hr hended
  rcases (hs.reaches hst).tended.idle ha (hrun ▸ hr') with hidle | hworking
  · exact hidle
  · simp [Run.working?, hended'] at hworking

/-- A stop that took a run returns that the attempts are finished or that the grace time was
exceeded, unless the source text could not be read at one of the looks of the run. Once it has
returned so, no attempt of the run ever changes the slot again, and what the slot takes is the work
of attempts of other runs. -/
theorem stopped_run_never_publishes {config : Config} {sink : MessageSink} {text : String}
    {actions : List (Action α)} {n id waited : Nat} {call : StopCall} {result : StopResult}
    (hsteps : (ofConfig config sink text : Service α).steps? actions = some (s, sent))
    (hcall : s.stops[n]? = some call) (hrun : call.run = some id)
    (hreturned : call.stage = .returned result waited) :
    ((∀ reason, .pollFails id reason ∉ actions) → config.Admits result) ∧
    (config.Admits result → ∀ t, s.Reaches t → ∀ action u told,
      t.step? action = some (u, told) →
      (∀ g a, actor? action = some g → t.attempt? g = some a → a.run = id →
        u.slot = t.slot) ∧
      (∀ artifact, t.accepted? action = some artifact →
        ∃ a, t.attempt? artifact.generation = some a ∧ a.run ≠ id)) := by
  have hreach : (ofConfig config sink text).Reaches s := ⟨actions, sent, hsteps⟩
  have hs : s.Reachable := ⟨config, sink, text, hreach⟩
  have hconfig : s.config = config :=
    hreach.induct (motive := fun u => u.config = config)
      (fun hu hstep => (Step.of_step? hstep).config.trans hu) rfl
  obtain ⟨r, hr, hresult⟩ := hs.resulting.returned hcall hrun hreturned
  -- the run has ended with this result, or it died
  have hstage : r.stage = .ended result ∨
      ∃ reason, r.stage = .dead reason ∧ result = .error (.supervisorPanicked reason) := by
    unfold Run.result? at hresult
    split at hresult
    · next hended => cases hresult; exact .inl hended
    · next reason hdead => cases hresult; exact .inr ⟨reason, hdead, rfl⟩
    · cases hresult
  refine ⟨fun hsource => ?_, fun hadmits t hst action u told hstep => ?_⟩
  · rcases hstage with hended | ⟨reason, hdead, -⟩
    · rw [← hconfig]
      exact hs.resulting.closing hr (by simp [Run.closing?, hended])
    · exact absurd (pollFails_mem_of_dead hsteps nofun hr hdead) (hsource reason)
  · have hended : r.stage = .ended result := by
      rcases hstage with hended | ⟨reason, -, rfl⟩
      · exact hended
      · rcases hadmits with hok | ⟨abandoned, hgrace⟩
        · cases hok
        · cases hgrace
    have hcases := Step.of_step? hstep
    refine ⟨fun g a hactor ha hid => ?_, fun artifact hacc => ?_⟩
    · exact hcases.slot_of_isIdle hactor ha (hs.isIdle_of_ended hst hr hended ha hid)
    · obtain ⟨⟨a, -, ha, hoffering, hcancelled⟩, -, -⟩ :=
        (hs.reaches hst).numbered.of_accepted? hacc
      refine ⟨a, ha, fun hid => ?_⟩
      have hidle := hs.isIdle_of_ended hst hr hended ha hid
      simp [Attempt.isIdle, Attempt.isFinished, hoffering, hcancelled] at hidle

/-- Two attempts are inside the compiler when the grace time is over. The second one, which was the
newest, comes back after the stop has returned, and its offer leaves the slot as it is. -/
theorem stopped_run_never_publishes_stubborn : ∃ s t u : Service Nat, ∃ sent told,
    (ofConfig { grace := .ofMillis 0 } {} "a" : Service Nat).steps?
      ([.start, .tick, .poll 1] ++ List.replicate 6 (.proceed 1) ++
        [.take 1, .edit "b", .tick, .poll 1] ++ List.replicate 9 (.proceed 1) ++
        [.take 2, .stop, .tellRun 0, .leave 1, .graceEnds 1] ++ List.replicate 4 (.proceed 1) ++
        [.stopReturns 0]) = some (s, sent) ∧
    s.stops[0]? = some ⟨some 1, 2, .returned (.error (.graceExceeded (.ofMillis 0) 2)) 0⟩ ∧
    s.Reaches t ∧ (t.attempt? 2).map (·.run) = some 1 ∧
    t.step? (.finish 2) = some (u, told) ∧ u.slot = t.slot := by
  refine ⟨_, _, _, _, _, rfl, rfl, .of_step (a := .compiled 2 (.value 5)) rfl, rfl, rfl, ?_⟩
  have hlaw := (@stopped_run_never_publishes Nat _ _ { grace := .ofMillis 0 } {} "a"
    ([.start, .tick, .poll 1] ++ List.replicate 6 (.proceed 1) ++
      [.take 1, .edit "b", .tick, .poll 1] ++ List.replicate 9 (.proceed 1) ++
      [.take 2, .stop, .tellRun 0, .leave 1, .graceEnds 1] ++ List.replicate 4 (.proceed 1) ++
      [.stopReturns 0]) 0 1 0 _ _ rfl rfl rfl rfl).2 (.inr ⟨2, rfl⟩)
  exact (hlaw _ (.of_step (a := .compiled 2 (.value 5)) rfl) (.finish 2) _ _ rfl).1 2 _ rfl rfl rfl

end Service

end CompileWatch
