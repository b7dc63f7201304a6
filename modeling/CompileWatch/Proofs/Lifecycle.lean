import CompileWatch.Proofs.Batches
import CompileWatch.Proofs.Overlaps

/-!
# The identities of runs

Whoever calls starts and stops, and in whatever order: runs are numbered one after the other, a
start answers with the run that is held as long as it is running, and a stop takes the run that is
held away. So the handle tells two starts apart exactly when a stop came between them and took it.
-/
namespace CompileWatch.Service

variable {α : Type} {s t u s₀ : Service α} {action : Action α} {actions middle : List (Action α)}
  {sent told more : List Stamped} {id : Nat}

/-- The identity that a start answers with. -/
def startId? (s : Service α) : Action α → Option Nat
  | .start => if s.isRunning then s.handle else some (s.runs.length + 1)
  | _ => none

/-- The run that a stop takes. -/
def tookId? (s : Service α) : Action α → Option Nat
  | .stop => s.handle
  | _ => none

/-- The starts of runs that were announced, in order. -/
def startsSaid (sent : List Stamped) : List Event :=
  (sent.map (·.event)).filter (·.kind = .engineStarted)

/-! ## Starts are announced -/

/-- What is sent in a step in which no run is started announces none. -/
theorem Step.kind_ne_engineStarted (h : Step s action t sent) (hs : s.Reachable)
    (hlength : t.runs.length = s.runs.length) {e : Stamped} (he : e ∈ sent) :
    e.event.kind ≠ .engineStarted := by
  cases h.sentBy hs.signed he with
  | run _ hrun _ =>
    intro hkind
    simpa [hkind] using hrun.kind_of_mem he
  | start haction _ =>
    subst haction
    cases h with
    | startAgain _ => cases he
    | start _ => simp [stamped] at hlength
    | run _ h => cases h
    | attempt _ h => cases h
  | panic _ _ _ hevent => simp [hevent, Attempt.panicEvent, Attempt.event]
  | @last a how _ _ _ hevent =>
    rw [hevent]
    cases how <;> simp [Attempt.lastEvent, Attempt.event, Event.withElapsed,
      Attempt.Conclusion.kind]
  | retrieval haction _ =>
    intro hkind
    subst haction
    have hcall := h.isOfCall_of_ask hs e he
    simp [Event.isOfCall, hkind] at hcall

/-- A run is announced when it is started, and only then. -/
theorem Step.startsSaid (h : Step s action t sent) (hs : s.Reachable) :
    (t.runIds = s.runIds ∧ Service.startsSaid sent = []) ∨
      (t.runIds = s.runIds ++ [s.runs.length + 1] ∧
        Service.startsSaid sent = [runEvent .engineStarted (s.runs.length + 1)]) := by
  rcases h.runIds with hsame | hnew
  · have hlength : t.runs.length = s.runs.length := by
      rw [← length_runIds, hsame, length_runIds]
    refine .inl ⟨hsame, List.filter_eq_nil_iff.2 fun e he => ?_⟩
    obtain ⟨x, hx, rfl⟩ := List.mem_map.1 he
    simpa using h.kind_ne_engineStarted hs hlength hx
  · refine .inr ⟨hnew, ?_⟩
    have hlength : t.runs.length = s.runs.length + 1 := by
      rw [← length_runIds, hnew, List.length_append, length_runIds]
      rfl
    cases h.handStep with
    | start haction hrun _ _ _ _ =>
      subst haction
      rw [(h.of_newRun hs hrun).2]
      rfl
    | idle _ _ _ hsame | drop _ _ _ hsame => omega
    | stop _ _ _ _ hsame => omega

theorem startsSaid_append (first second : List Stamped) :
    startsSaid (first ++ second) = startsSaid first ++ startsSaid second := by
  simp [startsSaid]

/-- Each run is announced once, in the order of the runs. -/
theorem startsSaid_of_steps? (hs₀ : s₀.Reachable) (hruns : s₀.runs = [])
    (hsteps : s₀.steps? actions = some (s, sent)) :
    startsSaid sent = s.runIds.map (runEvent .engineStarted) := by
  refine steps?_induct (motive := fun _ u told =>
      startsSaid told = u.runIds.map (runEvent .engineStarted))
    (fun {first u v a told more} hfirst hone hu => ?_) ?_ hsteps
  · have hreach : u.Reachable := hs₀.reaches ⟨first, told, hfirst⟩
    rw [startsSaid_append, hu]
    rcases (Step.of_step? hone).startsSaid hreach with ⟨hsame, hsaid⟩ | ⟨hnew, hsaid⟩
    · rw [hsaid, hsame, List.append_nil]
    · rw [hsaid, hnew, List.map_append]
      rfl
  · simp [runIds, hruns, startsSaid]

/-! ## The handle along a history -/

/-- After a start there is a run, the one that the start answers with, and it is running. -/
theorem isRunning_of_start (hs : s.Reachable) (hone : s.step? .start = some (t, sent)) :
    t.isRunning = true ∧ t.runId? = s.startId? .start := by
  have hstep := Step.of_step? hone
  cases hrun : s.isRunning with
  | true =>
    cases hstep with
    | startAgain _ => exact ⟨hrun, by simp [startId?, hrun, runId?]⟩
    | start hnot => exact absurd (hnot.symm.trans hrun) Bool.false_ne_true
    | run _ h => cases h
    | attempt _ h => cases h
  | false =>
    have hnew := (hstep.of_newRun hs hrun).1
    have hhandle : t.handle = some (s.runs.length + 1) := by
      cases hstep with
      | startAgain hagain => exact absurd (hrun.symm.trans hagain) Bool.false_ne_true
      | start _ => rfl
      | run _ h => cases h
      | attempt _ h => cases h
    exact ⟨by simp [isRunning, hhandle, hnew, Run.isOver], by simp [startId?, hrun, runId?, hhandle]⟩

/-- What a step that is no start does to the handle: it stays, or a stop or a drop empties it. -/
theorem Step.handle (h : Step s action t sent) (hstart : action ≠ .start) :
    t.handle = s.handle ∨ t.handle = none := by
  cases h.handStep with
  | idle hsame _ _ _ => exact .inl hsame
  | start haction _ _ _ _ _ => exact absurd haction hstart
  | stop _ hnone _ _ _ => exact .inr hnone
  | drop hnone _ _ _ => exact .inr hnone

/-- The handle stays empty until the next start. -/
theorem handle_of_steps? (hsteps : s.steps? actions = some (t, sent)) (hnone : s.handle = none)
    (hstart : .start ∉ actions) : t.handle = none := by
  induction actions generalizing s sent with
  | nil => cases hsteps; exact hnone
  | cons a rest ih =>
    obtain ⟨hne, hrest⟩ := List.ne_and_not_mem_of_not_mem_cons hstart
    obtain ⟨u, first, more, hone, hmore⟩ := steps?_cons_eq_some hsteps
    refine ih hmore ?_ hrest
    rcases (Step.of_step? hone).handle hne.symm with hsame | hempty
    · exact hsame.trans hnone
    · exact hempty

/-- The run that is held is the one that the last start answered with. -/
theorem getLast?_startId? (hs₀ : s₀.Reachable) (hnone : s₀.handle = none)
    (hsteps : s₀.steps? actions = some (s, sent)) (hheld : s.handle = some id) :
    (s₀.observe startId? actions).getLast? = some id := by
  refine steps?_induct (motive := fun actions u _ => ∀ id, u.handle = some id →
      (s₀.observe startId? actions).getLast? = some id)
    (fun {first u v a told more} hfirst hone ih id hid => ?_) (fun id hid => ?_) hsteps id hheld
  · rw [observe_snoc hfirst hone]
    by_cases hstart : a = .start
    · subst hstart
      obtain ⟨-, hanswer⟩ := isRunning_of_start (hs₀.reaches ⟨first, told, hfirst⟩) hone
      rw [← hanswer, runId?, hid]
      simp
    · have hquiet : u.startId? a = none := by
        cases a with
        | start => exact absurd rfl hstart
        | _ => rfl
      rw [hquiet, Option.toList_none, List.append_nil]
      rcases (Step.of_step? hone).handle hstart with hsame | hempty
      · exact ih id (hsame ▸ hid)
      · cases hempty.symm.trans hid
  · cases hnone.symm.trans hid

/-! ## What stops take -/

theorem Step.takenRuns (h : Step s action t sent) :
    t.takenRuns = s.takenRuns ++ (s.tookId? action).toList := by
  have quiet (htaken : t.takenRuns = s.takenRuns) (hnone : s.tookId? action = none) :
      t.takenRuns = s.takenRuns ++ (s.tookId? action).toList := by
    rw [htaken, hnone, Option.toList_none, List.append_nil]
  cases h with
  | run _ h =>
    refine quiet (by rw [Service.takenRuns, h.frame.2, Service.takenRuns]) ?_
    cases h <;> rfl
  | attempt _ h =>
    refine quiet (by rw [Service.takenRuns, h.frame.2, Service.takenRuns]) ?_
    cases h <;> rfl
  | stopNone hnone => simp [Service.takenRuns, tookId?, hnone]
  | stop hsome => simp [Service.takenRuns, tookId?, hsome]
  | @tellRun n k call hcall _ _ =>
    have hcall' : (s.updateRun k ({ · with cancelled := true })).stops[n]? = some call := hcall
    exact quiet (takenRuns_moveStop hcall' _) rfl
  | stopReturns hcall _ _ _ _ => exact quiet (takenRuns_moveStop hcall _) rfl
  | _ => exact quiet rfl rfl

/-- The runs that were taken are those that the stops of a history took, in order. -/
theorem takenRuns_of_steps? (hsteps : s.steps? actions = some (t, sent)) :
    t.takenRuns = s.takenRuns ++ s.observe tookId? actions := by
  refine observe_induct (motive := fun u seen => u.takenRuns = s.takenRuns ++ seen)
    (fun {u v a told seen} _ _ hone hu => ?_) hsteps (List.append_nil _).symm
  rw [(Step.of_step? hone).takenRuns, hu, List.append_assoc]

/-- Two stops that took the same run are one. -/
theorem eq_of_run_of_stops (hs : s.Reachable) {n m : Nat} {c d : StopCall}
    (hc : s.stops[n]? = some c) (hd : s.stops[m]? = some d) (hcrun : c.run = some id)
    (hdrun : d.run = some id) : n = m := by
  have hpairwise := List.pairwise_filterMap.1 hs.custody.once
  have apart {i j : Nat} {a b : StopCall} (hij : i < j) (ha : s.stops[i]? = some a)
      (hb : s.stops[j]? = some b) (harun : a.run = some id) (hbrun : b.run = some id) : False := by
    obtain ⟨hi, rfl⟩ := List.getElem?_eq_some_iff.1 ha
    obtain ⟨hj, rfl⟩ := List.getElem?_eq_some_iff.1 hb
    exact List.pairwise_iff_getElem.1 hpairwise i j hi hj hij id harun id hbrun rfl
  rcases Nat.lt_trichotomy n m with hlt | heq | hgt
  · exact (apart hlt hc hd hcrun hdrun).elim
  · exact heq
  · exact (apart hgt hd hc hdrun hcrun).elim

/-! ## Two starts -/

/-- A start answers with a run that no stop has taken. -/
theorem startId?_not_taken (hs : s.Reachable) (hanswer : s.startId? .start = some id) :
    id ∉ s.takenRuns := by
  intro htaken
  obtain ⟨hle, hheld⟩ := hs.custody.took htaken
  simp only [startId?] at hanswer
  split at hanswer
  · exact hheld hanswer
  · cases hanswer
    omega

/-- A run that is running is not over, and so has not died. -/
theorem not_dead_of_isRunning (hrun : s.isRunning = true) (hheld : s.handle = some id) {r : Run}
    (hr : s.run? id = some r) : r.isDead = false := by
  have hover : r.isOver = false := by
    simp only [isRunning, hheld, Option.bind_some, hr, Bool.and_eq_true] at hrun
    simpa using hrun.1
  unfold Run.isOver at hover
  unfold Run.isDead
  split at hover
  · cases hover
  · cases hover
  · split <;> simp_all

/-- A run whose looks at the source text do not fail does not die. -/
theorem isDead_of_reads (hsteps : s.steps? actions = some (t, sent)) {r r' : Run}
    (hr : s.run? id = some r) (halive : r.isDead = false) (hr' : t.run? id = some r')
    (hreads : ∀ reason, .pollFails id reason ∉ actions) : r'.isDead = false := by
  unfold Run.isDead
  split
  · next reason hdead =>
    refine absurd (pollFails_mem_of_dead hsteps (fun r₀ hr₀ hdead₀ => ?_) hr' hdead) (hreads reason)
    cases hr.symm.trans hr₀
    simp [Run.isDead, hdead₀] at halive
  · rfl

/-- Two starts answer with the same run exactly when no stop has taken it in between, where the
source text can be read. -/
theorem startId?_iff (hs : s.Reachable) {t u v : Service α} {told more last : List Stamped}
    (hfirst : s.step? .start = some (t, told)) (hsteps : t.steps? middle = some (u, more))
    (hsecond : u.step? .start = some (v, last)) (hanswer : s.startId? .start = some id)
    (hreads : ∀ reason, .pollFails id reason ∉ middle) :
    u.startId? .start = some id ↔ id ∉ t.observe tookId? middle := by
  have ht : t.Reachable := hs.step hfirst
  have hu : u.Reachable := ht.reaches ⟨middle, more, hsteps⟩
  have htaken := takenRuns_of_steps? hsteps
  obtain ⟨hrunning, hheld⟩ := isRunning_of_start hs hfirst
  rw [hanswer] at hheld
  constructor
  · intro hsame htook
    exact startId?_not_taken hu hsame (htaken ▸ List.mem_append_right _ htook)
  · intro hnot
    obtain ⟨-, -, r, hr, -⟩ := ht.custody.held hheld
    obtain ⟨r', hr'⟩ := Reaches.exists_run? ⟨middle, more, hsteps⟩ hr
    have halive := isDead_of_reads hsteps hr (not_dead_of_isRunning hrunning hheld hr) hr' hreads
    have hstill : u.handle = some id := by
      rcases hu.custody.given hr' with hyes | htook | hdropped | hdead
      · exact hyes
      · rw [htaken, List.mem_append] at htook
        rcases htook with hbefore | hbetween
        · exact absurd hheld (ht.custody.took hbefore).2
        · exact absurd hbetween hnot
      · exact absurd (hdropped.symm.trans (owned_of_start hsecond)) Bool.false_ne_true
      · exact absurd (halive.symm.trans hdead) Bool.false_ne_true
    cases hrun : u.isRunning with
    | true => simp [startId?, hrun, hstill]
    | false =>
      have hdead := hu.custody.isDead hrun hstill hr'
      exact absurd (halive.symm.trans hdead) Bool.false_ne_true

/-- Where no look at the source text fails, the run that is held is running. -/
theorem isRunning_of_held (hruns : s₀.runs = []) (hsteps : s₀.steps? actions = some (s, sent))
    (hs : s.Reachable) (hheld : s.handle = some id)
    (hreads : ∀ reason, .pollFails id reason ∉ actions) : s.isRunning = true := by
  obtain ⟨-, -, r, hr, -⟩ := hs.custody.held hheld
  cases hrun : s.isRunning with
  | true => rfl
  | false =>
    have hdead := hs.custody.isDead hrun hheld hr
    obtain ⟨reason, hstage⟩ : ∃ reason, r.stage = .dead reason := by
      unfold Run.isDead at hdead
      split at hdead
      · next reason hstage => exact ⟨reason, hstage⟩
      · cases hdead
    refine absurd (pollFails_mem_of_dead hsteps (fun r₀ hr₀ => ?_) hr hstage) (hreads reason)
    simp [run?, hruns] at hr₀

/-! ## Any lifecycle -/

/-- What starts and stops can rely on in a history from `s₀` to `s` in which `sent` is sent. -/
structure Identified (s₀ : Service α) (actions : List (Action α)) (s : Service α)
    (sent : List Stamped) : Prop where
  /-- The runs are numbered from one on, without gap or repetition, -/
  numbered : s.runIds = List.range' 1 s.runs.length
  /-- and each is announced once, in the same order. -/
  announced : startsSaid sent = s.runIds.map (runEvent .engineStarted)
  /-- After a start the run that it answers with is the present one, and it is running. -/
  started {t : Service α} {told : List Stamped} : s.step? .start = some (t, told) →
    t.runId? = s.startId? .start ∧ t.isRunning = true
  /-- Two starts answer with the same run if and only if no stop took it in between. -/
  same_iff {middle : List (Action α)} {t u v : Service α} {told more last : List Stamped}
      {id : Nat} : s.step? .start = some (t, told) → t.steps? middle = some (u, more) →
    u.step? .start = some (v, last) → s.startId? .start = some id →
    (∀ reason, .pollFails id reason ∉ middle) →
    (u.startId? .start = some id ↔ id ∉ t.observe tookId? middle)
  /-- If there is a present run, it is the one that the last start answered with, -/
  latest {id : Nat} : s.runId? = some id → (s₀.observe startId? actions).getLast? = some id
  /-- and nothing is running without one. Where no look at the source text fails, a present run is
  always running. -/
  present : s.isRunning = true → s.runId?.isSome
  running : (∀ id reason, .pollFails id reason ∉ actions) → s.runId?.isSome →
    s.isRunning = true
  /-- From the moment a stop takes the present run until the next start, there is none. -/
  cleared {middle : List (Action α)} {t u : Service α} {told more : List Stamped} :
    s.step? .stop = some (t, told) → t.steps? middle = some (u, more) → .start ∉ middle →
    u.runId? = none ∧ u.isRunning = false
  /-- No two stops take the same run, -/
  once {n m : Nat} {c d : StopCall} {id : Nat} : s.stops[n]? = some c → s.stops[m]? = some d →
    c.run = some id → d.run = some id → n = m
  /-- and a stop that took a run returns the result of that run. -/
  result {call : StopCall} {id waited : Nat} {result : StopResult} : call ∈ s.stops →
    call.run = some id → call.stage = .returned result waited →
    (s.run? id).bind (·.result?) = some result
  /-- A stop that finds no run returns at once that all is well, and changes nothing. -/
  nothing {t : Service α} {told : List Stamped} : s.runId? = none →
    s.step? .stop = some (t, told) → told = [] ∧
      t = { s with stops := s.stops ++ [⟨none, s.now, .returned (.ok ()) 0⟩] }

theorem isRunning_of_handle (hnone : s.handle = none) : s.isRunning = false := by
  simp [isRunning, hnone]

/-- After a stop no run is held. -/
theorem handle_of_stop (hone : s.step? .stop = some (t, sent)) : t.handle = none := by
  cases Step.of_step? hone with
  | stopNone hnone => exact hnone
  | stop _ => rfl
  | run _ h => cases h
  | attempt _ h => cases h

/-- Whoever starts and stops runs and asks for them, and in whatever order. -/
theorem run_identities {config : Config} {sink : MessageSink} {text : String}
    (hsteps : (ofConfig config sink text : Service α).steps? actions = some (s, sent)) :
    Identified (ofConfig config sink text) actions s sent := by
  have hs₀ : (ofConfig config sink text : Service α).Reachable := ⟨config, sink, text, .refl _⟩
  have hs : s.Reachable := ⟨config, sink, text, actions, sent, hsteps⟩
  refine
    { numbered := hs.runIds
      announced := startsSaid_of_steps? hs₀ rfl hsteps
      started := fun hone => (isRunning_of_start hs hone).symm
      same_iff := fun hfirst hmiddle hsecond hanswer hreads =>
        startId?_iff hs hfirst hmiddle hsecond hanswer hreads
      latest := getLast?_startId? hs₀ rfl hsteps
      present := fun hrun => ?_
      running := fun hreads hpresent => ?_
      cleared := fun hone hmiddle hstart => ?_
      once := eq_of_run_of_stops hs
      result := fun hcall hrun hreturned => ?_
      nothing := fun hnone hone => ?_ }
  · by_contra hnone
    have hempty : s.handle = none := by simpa [runId?] using hnone
    exact absurd ((isRunning_of_handle hempty).symm.trans hrun) Bool.false_ne_true
  · obtain ⟨id, hid⟩ := Option.isSome_iff_exists.1 hpresent
    exact isRunning_of_held rfl hsteps hs hid (hreads id)
  · have hnone := handle_of_steps? hmiddle (handle_of_stop hone) hstart
    exact ⟨hnone, isRunning_of_handle hnone⟩
  · obtain ⟨n, hn⟩ := List.mem_iff_getElem?.1 hcall
    obtain ⟨r, hr, hresult⟩ := hs.resulting.returned hn hrun hreturned
    rw [hr, Option.bind_some, hresult]
  · obtain ⟨hsilent, ⟨-, hsame⟩ | ⟨id, hsome, -⟩⟩ := hs.stop_cases hone
    · exact ⟨hsilent, hsame⟩
    · cases hnone.symm.trans hsome

/-- Two starts, a stop with a second one behind it, and a start again. -/
def restartedRun : List (Action Nat) :=
  [Action.start, Action.start, Action.stop, Action.stop, Action.tellRun 0, Action.leave 1,
    Action.drained 1, Action.proceed 1, Action.stopReturns 0, Action.start]

theorem run_identities_restarted : ∃ s : Service Nat, ∃ sent,
    (ofConfig {} {} "a").steps? restartedRun = some (s, sent) ∧
    (ofConfig {} {} "a").observe startId? restartedRun = [1, 1, 2] ∧
    (ofConfig {} {} "a").observe tookId? restartedRun = [1] ∧
    s.runIds = [1, 2] ∧ s.runId? = some 2 ∧
    Identified (ofConfig {} {} "a") restartedRun s sent :=
  ⟨_, _, rfl, rfl, rfl, rfl, rfl, run_identities rfl⟩

end CompileWatch.Service
