import CompileWatch.Proofs.Lookup
import CompileWatch.Service.History

/-!
# What a step can do

`Service.Step` lists, one constructor for each case, all that one action can do to the service. The
actions of runs, of attempts and of everyone else are listed apart. `Step.of_step?` says that the
list is complete: every property that all steps have is proved by going through it.
-/
namespace CompileWatch.Service

variable {α : Type}

/-! ## Steps of runs -/

/-- All that a run `r` of the service `s` can do in one step, with the run and the service as they
are afterwards. -/
inductive RunStep (s : Service α) (r : Run) :
    Action α → Run → Service α → List Stamped → Prop
  | notice {wake : Nat} : r.stage = .waiting wake → wake ≤ s.now → r.isNews s.text = true →
      RunStep s r (.poll r.id) { r with stage := .noticed s.text }
        (s.moveRun r.id (.noticed s.text)) []
  | rest {wake : Nat} : r.stage = .waiting wake → wake ≤ s.now → r.isNews s.text = false →
      RunStep s r (.poll r.id) { r with stage := .waiting s.nextPoll }
        ((s.looked r.id s.attempts.length).moveRun r.id (.waiting s.nextPoll)) []
  | die {wake : Nat} {reason : String} : r.stage = .waiting wake → wake ≤ s.now →
      RunStep s r (.pollFails r.id reason) { r with stage := .dead reason }
        ((s.moveRun r.id (.dead reason)).callOffRun r.id) []
  | leave {wake : Nat} : r.stage = .waiting wake → r.cancelled = true →
      RunStep s r (.leave r.id) { r with stage := .draining s.now }
        (s.moveRun r.id (.draining s.now)) []
  | drained {since : Nat} : r.stage = .draining since →
      (s.looked r.id Line.turnLength).outstanding r.id = [] →
      RunStep s r (.drained r.id) { r with stage := .closing (.ok ()) }
        ((s.looked r.id Line.turnLength).moveRun r.id (.closing (.ok ()))) []
  | graceEnds {since : Nat} : r.stage = .draining since →
      since + s.config.grace.ticks ≤ s.now →
      (s.looked r.id Line.turnLength).outstanding r.id ≠ [] →
      RunStep s r (.graceEnds r.id)
        { r with stage := .overdue ((s.looked r.id Line.turnLength).outstanding r.id).length }
        ((s.looked r.id Line.turnLength).moveRun r.id
          (.overdue ((s.looked r.id Line.turnLength).outstanding r.id).length)) []
  | glance {since : Nat} : r.stage = .draining since →
      RunStep s r (.glance r.id) r (s.looked r.id Line.turnLength) []
  | announceChange {text : String} : r.stage = .noticed text →
      RunStep s r (.proceed r.id) { r with stage := .looking text }
        (s.moveRun r.id (.looking text)).stamped
        [⟨s.nextSeq, { runEvent .sourceChanged r.id with source := some text }⟩]
  | forget {text : String} : r.stage = .looking text →
      (∀ g, r.previous = some g → s.isFinished g = true) →
      RunStep s r (.proceed r.id) { r with previous := none, stage := .numbering text }
        ((s.updateRun r.id ({ · with previous := none })).moveRun r.id (.numbering text)) []
  | displace {text : String} {g : Generation} : r.stage = .looking text →
      r.previous = some g → s.isFinished g = false →
      RunStep s r (.proceed r.id) { r with previous := none, stage := .cancelling text g }
        ((s.updateRun r.id ({ · with previous := none })).moveRun r.id (.cancelling text g)) []
  | cancel {text : String} {g : Generation} : r.stage = .cancelling text g →
      RunStep s r (.proceed r.id) { r with stage := .callingOff text g }
        ((s.cancelAttempt g).moveRun r.id (.callingOff text g)) []
  | callOff {text : String} {g : Generation} : r.stage = .callingOff text g →
      RunStep s r (.proceed r.id) { r with stage := .superseding text g }
        ((s.callOff g).moveRun r.id (.superseding text g)) []
  | announceSuperseded {text : String} {g : Generation} : r.stage = .superseding text g →
      RunStep s r (.proceed r.id) { r with stage := .numbering text }
        (s.moveRun r.id (.numbering text)).stamped
        [⟨s.nextSeq, { runEvent .attemptSuperseded r.id with generation := some g }⟩]
  | number {text : String} : r.stage = .numbering text →
      RunStep s r (.proceed r.id) { r with stage := .raising text (s.generation + 1) }
        ({ s with generation := s.generation + 1 }.moveRun r.id
          (.raising text (s.generation + 1))) []
  | raise {text : String} {g : Generation} : r.stage = .raising text g →
      RunStep s r (.proceed r.id) { r with stage := .announcing text g }
        ((s.putSlot (s.slot.advance g)).moveRun r.id (.announcing text g)) []
  | announceStart {text : String} {g : Generation} : r.stage = .announcing text g →
      RunStep s r (.proceed r.id) { r with stage := .launching text g }
        (s.moveRun r.id (.launching text g)).stamped
        [⟨s.nextSeq, { runEvent .attemptStarting r.id with
          generation := some g, source := some text }⟩]
  | launch {text : String} {g : Generation} : r.stage = .launching text g →
      RunStep s r (.proceed r.id)
        { r with previous := some g, lastText := some text, stage := .waiting s.nextPoll }
        (((s.launched r.id text g).looked r.id (s.attempts.length + 1)).updateRun r.id
          ({ · with previous := some g, lastText := some text, stage := .waiting s.nextPoll })) []
  | cancelLast {n : Nat} {g : Generation} : r.stage = .overdue n → r.previous = some g →
      RunStep s r (.proceed r.id) { r with stage := .givingUp n }
        ((s.cancelAttempt g).moveRun r.id (.givingUp n)) []
  | cancelNone {n : Nat} : r.stage = .overdue n → r.previous = none →
      RunStep s r (.proceed r.id) { r with stage := .givingUp n }
        (s.moveRun r.id (.givingUp n)) []
  | callOffLast {n : Nat} {g : Generation} : r.stage = .givingUp n → r.previous = some g →
      RunStep s r (.proceed r.id) { r with previous := none, stage := .reportingGrace n }
        (((s.callOff g).updateRun r.id ({ · with previous := none })).moveRun r.id
          (.reportingGrace n)) []
  | callOffNone {n : Nat} : r.stage = .givingUp n → r.previous = none →
      RunStep s r (.proceed r.id) { r with previous := none, stage := .reportingGrace n }
        ((s.updateRun r.id ({ · with previous := none })).moveRun r.id (.reportingGrace n)) []
  | announceGrace {n : Nat} : r.stage = .reportingGrace n →
      RunStep s r (.proceed r.id)
        { r with stage := .closing (.error (.graceExceeded s.config.grace n)) }
        (s.moveRun r.id (.closing (.error (.graceExceeded s.config.grace n)))).stamped
        [⟨s.nextSeq, { runEvent .graceExceeded r.id with
          reason := some (toString n) : Event }.withElapsed s.config.grace⟩]
  | announceEnd {result : StopResult} : r.stage = .closing result →
      RunStep s r (.proceed r.id) { r with stage := .ended result }
        (s.moveRun r.id (.ended result)).stamped
        [⟨s.nextSeq, runEvent .engineStopped r.id⟩]

theorem RunStep.of_poll? {s t : Service α} {r : Run} (h : s.poll? r = some t) :
    ∃ r', RunStep s r (.poll r.id) r' t [] := by
  unfold poll? at h
  split at h
  · next hs =>
    split at h
    · next hw =>
      cases h
      split
      · next hn => exact ⟨_, .notice hs hw hn⟩
      · next hn =>
        rw [noteAll, note_eq_looked]
        exact ⟨_, .rest hs hw (by simpa using hn)⟩
    · cases h
  · cases h

theorem RunStep.of_pollFails? {s t : Service α} {r : Run} {reason : String}
    (h : s.pollFails? r reason = some t) : ∃ r', RunStep s r (.pollFails r.id reason) r' t [] := by
  unfold pollFails? at h
  split at h
  · next hs =>
    split at h
    · next hw => cases h; exact ⟨_, .die hs hw⟩
    · cases h
  · cases h

theorem RunStep.of_leave? {s t : Service α} {r : Run} (h : s.leave? r = some t) :
    ∃ r', RunStep s r (.leave r.id) r' t [] := by
  unfold leave? at h
  split at h
  · next hs =>
    split at h
    · next hc => cases h; exact ⟨_, .leave hs hc⟩
    · cases h
  · cases h

theorem RunStep.of_drained? {s t : Service α} {r : Run} (h : s.drained? r = some t) :
    ∃ r', RunStep s r (.drained r.id) r' t [] := by
  unfold drained? at h
  split at h
  · next hs =>
    dsimp only at h
    rw [note_eq_looked] at h
    split at h
    · next he => cases h; exact ⟨_, .drained hs (List.isEmpty_iff.1 he)⟩
    · cases h
  · cases h

theorem RunStep.of_graceEnds? {s t : Service α} {r : Run} (h : s.graceEnds? r = some t) :
    ∃ r', RunStep s r (.graceEnds r.id) r' t [] := by
  unfold graceEnds? at h
  split at h
  · next hs =>
    dsimp only at h
    rw [note_eq_looked] at h
    split at h
    · next he =>
      cases h
      simp only [Bool.and_eq_true, decide_eq_true_eq, Bool.not_eq_true', List.isEmpty_eq_false_iff]
        at he
      exact ⟨_, .graceEnds hs he.1 he.2⟩
    · cases h
  · cases h

theorem RunStep.of_glance? {s t : Service α} {r : Run} (h : s.glance? r = some t) :
    ∃ r', RunStep s r (.glance r.id) r' t [] := by
  unfold glance? at h
  split at h
  · next hs =>
    split at h
    · cases h
      rw [note_eq_looked]
      exact ⟨_, .glance hs⟩
    · cases h
  · cases h

theorem RunStep.of_proceed? {s t : Service α} {r : Run} {sent : List Stamped}
    (h : s.proceed? r = some (t, sent)) : ∃ r', RunStep s r (.proceed r.id) r' t sent := by
  unfold proceed? at h
  split at h
  case h_1 text hs => cases h; exact ⟨_, .announceChange hs⟩
  case h_2 text hs =>
    dsimp only at h
    split at h
    · next hp => cases h; exact ⟨_, .forget hs (by simp [hp])⟩
    · next g hp =>
      split at h
      · next hf => cases h; exact ⟨_, .forget hs (by simp [hp, hf])⟩
      · next hf => cases h; exact ⟨_, .displace hs hp (by simpa using hf)⟩
  case h_3 text g hs => cases h; exact ⟨_, .cancel hs⟩
  case h_4 text g hs => cases h; exact ⟨_, .callOff hs⟩
  case h_5 text g hs => cases h; exact ⟨_, .announceSuperseded hs⟩
  case h_6 text hs => cases h; exact ⟨_, .number hs⟩
  case h_7 text g hs => cases h; exact ⟨_, .raise hs⟩
  case h_8 text g hs => cases h; exact ⟨_, .announceStart hs⟩
  case h_9 text g hs =>
    cases h
    rw [noteAll, note_eq_looked, List.length_append]
    exact ⟨_, .launch hs⟩
  case h_10 n hs =>
    cases h
    split
    · next hp => exact ⟨_, .cancelNone hs hp⟩
    · next g hp => exact ⟨_, .cancelLast hs hp⟩
  case h_11 n hs =>
    cases h
    split
    · next hp => exact ⟨_, .callOffNone hs hp⟩
    · next g hp => exact ⟨_, .callOffLast hs hp⟩
  case h_12 n hs => cases h; exact ⟨_, .announceGrace hs⟩
  case h_13 result hs => cases h; exact ⟨_, .announceEnd hs⟩
  all_goals cases h

/-! ## Steps of attempts -/

/-- The state after the step `move` of the attempt `a`. -/
def afterMove (s : Service α) (a : Attempt α) (move : Attempt.Move α) : Service α :=
  let s := (s.putSlot move.slot).updateAttempt a.generation fun _ => move.attempt
  let s := if move.notifies then { s with board := s.board.notify } else s
  if move.stamps then s.stamped else s

/-- A step of an attempt changes the attempts, the board and the number of the next event only. -/
theorem afterMove_eq (s : Service α) (a : Attempt α) (move : Attempt.Move α) :
    s.afterMove a move = { s with
      board := (s.afterMove a move).board
      attempts := (s.updateAttempt a.generation fun _ => move.attempt).attempts
      nextSeq := (s.afterMove a move).nextSeq } := by
  unfold afterMove
  dsimp only
  split <;> split <;> rfl

/-- How a worker finds an attempt that it takes: it begins, unless it was called off. -/
def taken (now : Nat) (a : Attempt α) : Attempt α :=
  if a.calledOff then { a with stage := .finished none }
  else { a with stage := .compiling, began := now }

/-- How an attempt goes on when its compiler has come back. -/
def answered (now : Nat) (outcome : Outcome α) (a : Attempt α) : Attempt α :=
  { a with stage := a.stageAfter outcome, spent := now - a.began }

/-- All that an attempt `a` of the service `s` can do in one step, with the attempt and the service
as they are afterwards. -/
inductive AttemptStep (s : Service α) (a : Attempt α) :
    Action α → Attempt α → Service α → List Stamped → Prop
  | take : a.stage = .queued →
      AttemptStep s a (.take a.generation) (taken s.now a)
        (s.updateAttempt a.generation (taken s.now)) []
  | cancelItself : a.stage = .compiling →
      AttemptStep s a (.cancelItself a.generation) { a with cancelled := true }
        (s.cancelAttempt a.generation) []
  | answer {outcome : Outcome α} : a.stage = .compiling →
      AttemptStep s a (.compiled a.generation outcome) (answered s.now outcome a)
        (s.updateAttempt a.generation (answered s.now outcome)) []
  | move {move : Attempt.Move α} : a.next? s.nextSeq s.slot = some move →
      AttemptStep s a (.finish a.generation) move.attempt (s.afterMove a move) move.sent.toList

theorem AttemptStep.of_take? {s t : Service α} {a : Attempt α} (h : s.take? a = some t) :
    ∃ a', AttemptStep s a (.take a.generation) a' t [] := by
  unfold take? at h
  split at h
  · next hs => cases h; exact ⟨_, .take hs⟩
  · cases h

theorem AttemptStep.of_cancelItself? {s t : Service α} {a : Attempt α}
    (h : s.cancelItself? a = some t) :
    ∃ a', AttemptStep s a (.cancelItself a.generation) a' t [] := by
  unfold cancelItself? at h
  split at h
  · next hc =>
    cases h
    refine ⟨_, .cancelItself ?_⟩
    unfold Attempt.isCompiling at hc
    split at hc
    · assumption
    · cases hc
  · cases h

theorem AttemptStep.of_compiled? {s t : Service α} {a : Attempt α} {outcome : Outcome α}
    (h : s.compiled? a outcome = some t) :
    ∃ a', AttemptStep s a (.compiled a.generation outcome) a' t [] := by
  unfold compiled? at h
  split at h
  · next hs => cases h; exact ⟨_, .answer hs⟩
  · cases h

theorem AttemptStep.of_finish? {s t : Service α} {a : Attempt α} {sent : List Stamped}
    (h : s.finish? a = some (t, sent)) :
    ∃ a', AttemptStep s a (.finish a.generation) a' t sent := by
  obtain ⟨move, hmove, heq⟩ := Option.map_eq_some_iff.1 h
  cases heq
  exact ⟨_, .move hmove⟩

/-! ## Steps of the whole service -/

/-- All that one action can do to the service `s`. -/
inductive Step (s : Service α) : Action α → Service α → List Stamped → Prop
  | tick : Step s .tick { s with board := s.board.tick } []
  | retrieve {label code : String} {timeout : Span} :
      Step s (.retrieve label code timeout) { s with board := s.board.call label code timeout } []
  | ask {i : Nat} {board : Board α} : s.board.ask? i = some (board, none) →
      Step s (.ask i) { s with board } []
  | report {i : Nat} {board : Board α} {event : Event} :
      s.board.ask? i = some (board, some event) →
      Step s (.ask i) { s with board : Service α }.stamped [⟨s.nextSeq, event⟩]
  | wake {i : Nat} {board : Board α} : s.board.wake? i = some board →
      Step s (.wake i) { s with board } []
  | abandon {i : Nat} {board : Board α} : s.board.abandon? i = some board →
      Step s (.abandon i) { s with board } []
  | edit {text : String} : Step s (.edit text) { s with text } []
  | startAgain : s.isRunning = true → Step s .start s []
  | start : s.isRunning = false →
      Step s .start { s with
        runs := s.runs ++ [{ id := s.runs.length + 1, stage := .waiting s.nextPoll }]
        handle := some (s.runs.length + 1) : Service α }.stamped
        [⟨s.nextSeq, runEvent .engineStarted (s.runs.length + 1)⟩]
  | stopNone : s.handle = none →
      Step s .stop { s with stops := s.stops ++ [⟨none, s.now, .returned (.ok ()) 0⟩] } []
  | stop {id : Nat} : s.handle = some id →
      Step s .stop { s with handle := none, stops := s.stops ++ [⟨some id, s.now, .taken⟩] } []
  | tellRun {n id : Nat} {call : StopCall} : s.stops[n]? = some call → call.stage = .taken →
      call.run = some id →
      Step s (.tellRun n)
        ((s.updateRun id ({ · with cancelled := true })).moveStop n call .awaiting) []
  | stopReturns {n id : Nat} {call : StopCall} {r : Run} {result : StopResult} :
      s.stops[n]? = some call → call.stage = .awaiting → call.run = some id →
      s.run? id = some r → r.result? = some result →
      Step s (.stopReturns n) (s.moveStop n call (.returned result (s.now - call.begun))) []
  | dropNone : s.handle = none → Step s .drop { s with owned := false } []
  | drop {id : Nat} : s.handle = some id →
      Step s .drop { { s with owned := false : Service α }.updateRun id
        ({ · with cancelled := true }) with handle := none } []
  | run {r r' : Run} {action : Action α} {t : Service α} {sent : List Stamped} :
      s.run? r.id = some r → RunStep s r action r' t sent → Step s action t sent
  | attempt {a a' : Attempt α} {action : Action α} {t : Service α} {sent : List Stamped} :
      s.attempt? a.generation = some a → AttemptStep s a action a' t sent → Step s action t sent

/-- What is not found cannot take a silent step. -/
theorem exists_of_silent {β : Type} {found : Option β} {f : β → Option (Service α)}
    {t : Service α} {sent : List Stamped} (h : silent (found.bind f) = some (t, sent)) :
    ∃ b, found = some b ∧ f b = some t ∧ sent = [] := by
  obtain ⟨u, hu, heq⟩ := Option.map_eq_some_iff.1 h
  cases heq
  obtain ⟨b, hb, hf⟩ := Option.bind_eq_some_iff.1 hu
  exact ⟨b, hb, hf, rfl⟩

theorem Step.of_start (s : Service α) : Step s .start s.start.1 s.start.2 := by
  unfold Service.start
  split
  · next h => exact .startAgain h
  · next h => exact .start (by simpa using h)

theorem Step.of_stop (s : Service α) : Step s .stop s.stop [] := by
  unfold Service.stop
  split
  · next h => exact .stopNone h
  · next h => exact .stop h

theorem Step.of_tellRun? {s t : Service α} {n : Nat} (h : s.tellRun? n = some t) :
    Step s (.tellRun n) t [] := by
  unfold tellRun? at h
  split at h
  · next call hcall =>
    split at h
    · next hs hr => cases h; exact .tellRun hcall hs hr
    · cases h
  · cases h

theorem Step.of_stopReturns? {s t : Service α} {n : Nat} (h : s.stopReturns? n = some t) :
    Step s (.stopReturns n) t [] := by
  unfold stopReturns? at h
  split at h
  · next call hcall =>
    split at h
    · next hs hr =>
      cases h
      obtain ⟨r, hfound, hresult⟩ := Option.bind_eq_some_iff.1 hr
      obtain ⟨id, hid, hrun⟩ := Option.bind_eq_some_iff.1 hfound
      exact .stopReturns hcall hs hid hrun hresult
    · cases h
  · cases h

theorem Step.of_drop (s : Service α) : Step s .drop s.drop [] := by
  unfold Service.drop
  dsimp only
  split
  · next h => exact .dropNone h
  · next h => exact .drop h

theorem Step.of_ask? {s t : Service α} {i : Nat} {sent : List Stamped}
    (h : s.ask? i = some (t, sent)) : Step s (.ask i) t sent := by
  obtain ⟨⟨board, event⟩, hask, heq⟩ := Option.map_eq_some_iff.1 h
  cases event with
  | none => cases heq; exact .ask hask
  | some e => cases heq; exact .report hask

/-- The list of steps is complete. -/
theorem Step.of_step? {s t : Service α} {action : Action α} {sent : List Stamped}
    (h : s.step? action = some (t, sent)) : Step s action t sent := by
  -- a run or an attempt that was found under a key is found under its own key too
  have run {id : Nat} {r : Run} (hr : s.run? id = some r) : id = r.id ∧ s.run? r.id = some r := by
    rw [id_of_run? hr]; exact ⟨rfl, hr⟩
  have attempt {g : Generation} {a : Attempt α} (ha : s.attempt? g = some a) :
      g = a.generation ∧ s.attempt? a.generation = some a := by
    rw [generation_of_attempt? ha]; exact ⟨rfl, ha⟩
  cases action with
  | tick => cases h; exact .tick
  | edit text => cases h; exact .edit
  | start =>
    simp only [step?, Option.ite_none_right_eq_some, Option.some.injEq] at h
    obtain ⟨-, h⟩ := h
    have hstart := Step.of_start s
    rwa [h] at hstart
  | stop =>
    simp only [step?, Option.ite_none_right_eq_some, Option.some.injEq, Prod.mk.injEq] at h
    obtain ⟨-, rfl, rfl⟩ := h
    exact .of_stop s
  | tellRun n =>
    obtain ⟨u, hu, heq⟩ := Option.map_eq_some_iff.1 h
    cases heq
    exact .of_tellRun? hu
  | stopReturns n =>
    obtain ⟨u, hu, heq⟩ := Option.map_eq_some_iff.1 h
    cases heq
    exact .of_stopReturns? hu
  | drop =>
    simp only [step?, Option.ite_none_right_eq_some, Option.some.injEq, Prod.mk.injEq] at h
    obtain ⟨-, rfl, rfl⟩ := h
    exact .of_drop s
  | poll id =>
    obtain ⟨r, hr, hf, rfl⟩ := exists_of_silent h
    obtain ⟨rfl, hr⟩ := run hr
    obtain ⟨r', hstep⟩ := RunStep.of_poll? hf
    exact .run hr hstep
  | pollFails id reason =>
    obtain ⟨r, hr, hf, rfl⟩ := exists_of_silent h
    obtain ⟨rfl, hr⟩ := run hr
    obtain ⟨r', hstep⟩ := RunStep.of_pollFails? hf
    exact .run hr hstep
  | leave id =>
    obtain ⟨r, hr, hf, rfl⟩ := exists_of_silent h
    obtain ⟨rfl, hr⟩ := run hr
    obtain ⟨r', hstep⟩ := RunStep.of_leave? hf
    exact .run hr hstep
  | drained id =>
    obtain ⟨r, hr, hf, rfl⟩ := exists_of_silent h
    obtain ⟨rfl, hr⟩ := run hr
    obtain ⟨r', hstep⟩ := RunStep.of_drained? hf
    exact .run hr hstep
  | graceEnds id =>
    obtain ⟨r, hr, hf, rfl⟩ := exists_of_silent h
    obtain ⟨rfl, hr⟩ := run hr
    obtain ⟨r', hstep⟩ := RunStep.of_graceEnds? hf
    exact .run hr hstep
  | glance id =>
    obtain ⟨r, hr, hf, rfl⟩ := exists_of_silent h
    obtain ⟨rfl, hr⟩ := run hr
    obtain ⟨r', hstep⟩ := RunStep.of_glance? hf
    exact .run hr hstep
  | proceed id =>
    obtain ⟨r, hr, hf⟩ := Option.bind_eq_some_iff.1 h
    obtain ⟨rfl, hr⟩ := run hr
    obtain ⟨r', hstep⟩ := RunStep.of_proceed? hf
    exact .run hr hstep
  | take g =>
    obtain ⟨a, ha, hf, rfl⟩ := exists_of_silent h
    obtain ⟨rfl, ha⟩ := attempt ha
    obtain ⟨a', hstep⟩ := AttemptStep.of_take? hf
    exact .attempt ha hstep
  | cancelItself g =>
    obtain ⟨a, ha, hf, rfl⟩ := exists_of_silent h
    obtain ⟨rfl, ha⟩ := attempt ha
    obtain ⟨a', hstep⟩ := AttemptStep.of_cancelItself? hf
    exact .attempt ha hstep
  | compiled g outcome =>
    obtain ⟨a, ha, hf, rfl⟩ := exists_of_silent h
    obtain ⟨rfl, ha⟩ := attempt ha
    obtain ⟨a', hstep⟩ := AttemptStep.of_compiled? hf
    exact .attempt ha hstep
  | finish g =>
    obtain ⟨a, ha, hf⟩ := Option.bind_eq_some_iff.1 h
    obtain ⟨rfl, ha⟩ := attempt ha
    obtain ⟨a', hstep⟩ := AttemptStep.of_finish? hf
    exact .attempt ha hstep
  | retrieve label code timeout => cases h; exact .retrieve
  | ask i => exact .of_ask? h
  | wake i =>
    obtain ⟨u, hu, heq⟩ := Option.map_eq_some_iff.1 h
    cases heq
    obtain ⟨board, hboard, rfl⟩ := Option.map_eq_some_iff.1 hu
    exact .wake hboard
  | abandon i =>
    obtain ⟨u, hu, heq⟩ := Option.map_eq_some_iff.1 h
    cases heq
    obtain ⟨board, hboard, rfl⟩ := Option.map_eq_some_iff.1 hu
    exact .abandon hboard

end CompileWatch.Service
