import CompileWatch.Proofs.Provenance
import CompileWatch.Proofs.Wakeups

/-!
# One batch for each failing call

A call that has found its artifact or come too late tells the sink once, with one batch, if it
fails; then it reports to the bus once and returns. Nobody else writes to the sink. So, however many
calls share a sink, it holds the batches of the failing calls one after the other, in the order in
which they settled.
-/
namespace CompileWatch

/-- Is the event one with which a call reports? -/
def Event.isOfCall (e : Event) : Bool :=
  e.kind = .retrieveMatched || e.kind = .retrieveFailed || e.kind = .retrieveTimedOut

namespace Retrieval

variable {α : Type}

/-- The three ways in which a call for `code` that has seen some artifacts comes out: what it
returns, which batch goes with it, and how it is reported. -/
inductive ComesOut (saw : Artifact α → Prop) (code : String) (timeout : Span) :
    RetrievalResult α → List Diagnostic → Event → Prop
  /-- The artifact is compiled. -/
  | matched {a : Artifact α} {e : Event} : saw a → a.source = code → a.value?.isSome = true →
      e.kind = .retrieveMatched → e.generation = some a.generation →
      ComesOut saw code timeout (.ok a) [] e
  /-- The artifact holds diagnostics instead, at least one. -/
  | failed {a : Artifact α} {first : Diagnostic} {rest : List Diagnostic} {e : Event} :
      saw a → a.source = code → a.value? = none → a.diagnostics = first :: rest →
      e.kind = .retrieveFailed → e.generation = some a.generation →
      e.reason = some first.message →
      ComesOut saw code timeout (.error (.diagnostics a.diagnostics.length)) a.diagnostics e
  /-- No artifact came in time. -/
  | timedOut {e : Event} : e.kind = .retrieveTimedOut →
      ComesOut saw code timeout (.error (.timedOut code timeout))
        [.error ("Time out on compiling expression, " ++ code)] e

variable {saw saw' : Artifact α → Prop} {code : String} {timeout : Span}
  {result : RetrievalResult α} {batch : List Diagnostic} {e : Event}

/-- How an artifact of the wanted text comes out. -/
theorem comesOut_found {a : Artifact α} (hsaw : saw a) (h : a.source = code) (timeout : Span)
    (waited : Nat) :
    ComesOut saw code timeout (resultOf a) a.diagnostics (foundEvent a waited) := by
  obtain ⟨source, generation, content⟩ := a
  cases content with
  | compiled value => exact .matched hsaw h rfl rfl rfl
  | failed first rest =>
    exact .failed (a := ⟨source, generation, .failed first rest⟩) hsaw h rfl rfl rfl rfl rfl

theorem comesOut_late (saw : Artifact α → Prop) (code : String) (timeout : Span) (waited : Nat) :
    ComesOut saw code timeout (.error (.timedOut code timeout))
      [.error (RetrievalFailure.timedOut code timeout).message] (timeoutEvent code waited) :=
  .timedOut rfl

theorem ComesOut.mono (h : ComesOut saw code timeout result batch e) (hmono : ∀ a, saw a → saw' a) :
    ComesOut saw' code timeout result batch e := by
  cases h with
  | matched hsaw hsource hvalue hkind hgeneration =>
    exact .matched (hmono _ hsaw) hsource hvalue hkind hgeneration
  | failed hsaw hsource hvalue hdiagnostics hkind hgeneration hreason =>
    exact .failed (hmono _ hsaw) hsource hvalue hdiagnostics hkind hgeneration hreason
  | timedOut hkind => exact .timedOut hkind

/-- A call that returns an artifact has nothing to tell the sink. -/
theorem isOk_resultOf (a : Artifact α) : (resultOf a).isOk = a.diagnostics.isEmpty := by
  obtain ⟨source, generation, content⟩ := a
  cases content <;> rfl

/-- A call settles: its result, the batch that goes with it, and how it will be reported. -/
structure Settling (α : Type) where
  call : Nat
  result : RetrievalResult α
  batch : List Diagnostic
  event : Event

/-- Does the call fail? -/
def Settling.fails (x : Settling α) : Bool := !x.result.isOk

/-- What a call has settled and reported when it has come to a stage. -/
def Accounted (saw : Artifact α → Prop) (i : Nat) (r : Retrieval α) (settlings : List (Settling α))
    (reports : List (Nat × Event)) : Prop :=
  match r.stage with
  | .matched a _ => saw a ∧ a.source = r.code ∧ settlings = [] ∧ reports = []
  | .reporting result _ event => ∃ x, settlings = [x] ∧ x.result = result ∧ x.event = event ∧
    reports = []
  | .settled result _ => ∃ x, settlings = [x] ∧ x.result = result ∧ reports = [(i, x.event)]
  | _ => settlings = [] ∧ reports = []

section

variable {i : Nat} {r : Retrieval α} {settlings : List (Settling α)} {reports : List (Nat × Event)}

theorem Accounted.mono (h : Accounted saw i r settlings reports) (hmono : ∀ a, saw a → saw' a) :
    Accounted saw' i r settlings reports := by
  unfold Accounted at h ⊢
  cases hs : r.stage with
  | matched a waited =>
    simp only [hs] at h
    exact ⟨hmono a h.1, h.2⟩
  | _ => simpa only [hs] using h

theorem Accounted.length_le_one (h : Accounted saw i r settlings reports) :
    settlings.length ≤ 1 := by
  unfold Accounted at h
  split at h
  · simp [h.2.2.1]
  · obtain ⟨x, rfl, -⟩ := h
    exact Nat.le_refl 1
  · obtain ⟨x, rfl, -⟩ := h
    exact Nat.le_refl 1
  · simp [h.1]

/-- A call that has returned has settled and reported once. -/
theorem Accounted.of_result? {waited : Nat} (h : Accounted saw i r settlings reports)
    (hresult : r.result? = some (result, waited)) :
    ∃ x, settlings = [x] ∧ x.result = result ∧ reports = [(i, x.event)] := by
  unfold result? at hresult
  split at hresult
  · next hs =>
    cases hresult
    simpa only [Accounted, hs] using h
  · cases hresult

/-- A call that has not returned has reported nothing. -/
theorem Accounted.reports_eq_nil (h : Accounted saw i r settlings reports)
    (hresult : r.result? = none) : reports = [] := by
  unfold Accounted at h
  split at h
  · exact h.2.2.2
  · obtain ⟨x, -, -, -, hnone⟩ := h
    exact hnone
  · next hs => simp [result?, hs] at hresult
  · exact h.2

end

end Retrieval

namespace Service

open Retrieval (Settling ComesOut Accounted)

variable {α : Type} {s t s₀ : Service α} {action : Action α} {actions : List (Action α)}
  {sent told : List Stamped} {i : Nat} {r : Retrieval α}

/-! ## Settling and reporting -/

/-- What a call does to the sink and to the bus is in its step. -/
theorem move_of_ask? {board : Board α} {event : Option Event}
    (h : s.board.ask? i = some (board, event)) :
    ∃ r move, s.call? i = some r ∧ r.MoveStep s.now s.slot s.board.poll move ∧
      board.sink = (s.board.tell move.told).sink ∧ event = move.announced := by
  unfold Board.ask? at h
  split at h
  · cases h
  · next r hr =>
    obtain ⟨move, hmove, heq⟩ := Option.map_eq_some_iff.1 h
    cases heq
    refine ⟨r, move, hr, .of_next? hmove, ?_, rfl⟩
    cases move.told <;> rfl

/-- The call that settles in an action. -/
def settling? (s : Service α) : Action α → Option (Settling α)
  | .ask i => (s.call? i).bind fun r =>
    match r.stage with
    | .matched a waited =>
      some ⟨i, Retrieval.resultOf a, a.diagnostics, Retrieval.foundEvent a waited⟩
    | .overdue waited =>
      let failure := RetrievalFailure.timedOut r.code r.timeout
      some ⟨i, .error failure, [.error failure.message], Retrieval.timeoutEvent r.code waited⟩
    | _ => none
  | _ => none

/-- The call that reports in an action, and its report. -/
def report? (s : Service α) : Action α → Option (Nat × Event)
  | .ask i => (s.call? i).bind fun r =>
    match r.stage with
    | .reporting _ _ event => some (i, event)
    | _ => none
  | _ => none

theorem action_of_settling? {x : Settling α} (h : s.settling? action = some x) :
    action = .ask x.call := by
  cases action with
  | ask j =>
    obtain ⟨r, -, hs⟩ := Option.bind_eq_some_iff.1 h
    split at hs
    · cases hs; rfl
    · cases hs; rfl
    · cases hs
  | _ => cases h

theorem action_of_report? {x : Nat × Event} (h : s.report? action = some x) :
    action = .ask x.1 := by
  cases action with
  | ask j =>
    obtain ⟨r, -, hs⟩ := Option.bind_eq_some_iff.1 h
    split at hs
    · cases hs; rfl
    · cases hs
  | _ => cases h

/-- Only the step of a call itself settles or reports it. -/
theorem filter_settling_eq_nil (h : action ≠ .ask i) :
    (s.settling? action).toList.filter (·.call = i) = [] := by
  refine List.filter_eq_nil_iff.2 fun x hx => ?_
  have haction := action_of_settling? (Option.mem_toList.1 hx)
  simp only [decide_eq_true_eq]
  exact fun hi => h (hi ▸ haction)

theorem filter_report_eq_nil (h : action ≠ .ask i) :
    (s.report? action).toList.filter (·.1 = i) = [] := by
  refine List.filter_eq_nil_iff.2 fun x hx => ?_
  have haction := action_of_report? (Option.mem_toList.1 hx)
  simp only [decide_eq_true_eq]
  exact fun hi => h (hi ▸ haction)

/-- A call is given up only while it sleeps. -/
theorem Step.isParked_of_abandon (h : Step s (.abandon i) t sent) (hr : s.call? i = some r) :
    r.isParked = true := by
  cases h with
  | abandon habandon =>
    have hr' : s.board.retrievals[i]? = some r := hr
    simp only [Board.abandon?, hr', Option.ite_none_right_eq_some] at habandon
    exact habandon.1
  | run _ h => cases h
  | attempt _ h => cases h

/-- A call keeps what it was called with. -/
theorem Step.exists_call? (h : Step s action t sent) (hr : s.call? i = some r) :
    ∃ r', t.call? i = some r' ∧ r'.code = r.code ∧ r'.timeout = r.timeout := by
  cases h.callStep hr with
  | still hsame _ _ | publish _ hsame _ _ _ => exact ⟨r, hsame, rfl, rfl⟩
  | tick _ ht => subst ht; exact ⟨r, hr, rfl, rfl⟩
  | notify hnotified _ =>
    exact ⟨_, hnotified, (SameCall.notify r).code, (SameCall.notify r).timeout⟩
  | move _ hmove hmoved _ => exact ⟨_, hmoved, hmove.kept.1, hmove.kept.2.1⟩
  | wake _ _ hput _ | abandon _ hput _ => exact ⟨_, hput, rfl, rfl⟩

theorem RunStep.sink {r r' : Run} (h : RunStep s r action r' t sent) :
    t.board.sink = s.board.sink := by
  cases h <;> rfl

theorem AttemptStep.sink {a a' : Attempt α} (h : AttemptStep s a action a' t sent) :
    t.board.sink = s.board.sink := by
  cases h with
  | move _ => rw [board_afterMove]; split <;> rfl
  | _ => rfl

theorem settling?_eq_none (h : ∀ j, action ≠ .ask j) : s.settling? action = none := by
  cases hx : s.settling? action with
  | none => rfl
  | some x => exact absurd (action_of_settling? hx) (h x.call)

theorem report?_eq_none (h : ∀ j, action ≠ .ask j) : s.report? action = none := by
  cases hx : s.report? action with
  | none => rfl
  | some x => exact absurd (action_of_report? hx) (h x.1)

theorem RunStep.ne_ask {r r' : Run} (h : RunStep s r action r' t sent) (j : Nat) :
    action ≠ .ask j := by
  cases h <;> nofun

theorem AttemptStep.ne_ask {a a' : Attempt α} (h : AttemptStep s a action a' t sent) (j : Nat) :
    action ≠ .ask j := by
  cases h <;> nofun

/-- A call that was not made takes no steps. -/
theorem Step.ne_ask (h : Step s action t sent) (hnone : s.call? i = none) : action ≠ .ask i := by
  rintro rfl
  cases h with
  | ask hask | report hask =>
    obtain ⟨r, -, hr, -⟩ := move_of_ask? hask
    cases hnone.symm.trans hr
  | run _ h => cases h
  | attempt _ h => cases h

/-- The sink is given the batch of a call that settles and fails, and nothing else. -/
theorem Step.calls_sink (h : Step s action t sent) (hbatches : s.board.sink.takesBatches = true) :
    t.board.sink.takesBatches = true ∧
      t.board.sink.calls = s.board.sink.calls ++
        (((s.settling? action).toList.filter (·.fails)).map (·.batch)) := by
  have quiet (hsink : t.board.sink = s.board.sink) (hnone : s.settling? action = none) :
      t.board.sink.takesBatches = true ∧ t.board.sink.calls = s.board.sink.calls ++
        (((s.settling? action).toList.filter (·.fails)).map (·.batch)) := by
    simp [hsink, hnone, hbatches]
  have asked {j : Nat} {board : Board α} {event : Option Event}
      (hask : s.board.ask? j = some (board, event)) :
      board.sink.takesBatches = true ∧ board.sink.calls = s.board.sink.calls ++
        (((s.settling? (.ask j)).toList.filter (·.fails)).map (·.batch)) := by
    obtain ⟨r, move, hr, hmove, hsink, -⟩ := move_of_ask? hask
    rw [hsink]
    cases hmove with
    | @tellFound a waited hs =>
      cases hempty : a.diagnostics.isEmpty <;>
        simp [settling?, hr, hs, Board.tell, MessageSink.extend, hbatches, Settling.fails,
          Retrieval.isOk_resultOf, hempty]
    | tellLate hs =>
      simp [settling?, hr, hs, Board.tell, MessageSink.extend, hbatches, Settling.fails,
        Except.isOk, Except.toBool]
    | _ => simp [settling?, *, Board.tell]
  cases h with
  | ask hask => exact asked hask
  | report hask => exact asked hask
  | wake hwake =>
    obtain ⟨r, -, -, rfl⟩ := Board.of_wake? hwake
    exact quiet rfl rfl
  | abandon habandon =>
    obtain ⟨r, -, rfl⟩ := Board.of_abandon? habandon
    exact quiet rfl rfl
  | run _ h => exact quiet h.sink (settling?_eq_none h.ne_ask)
  | attempt _ h => exact quiet h.sink (settling?_eq_none h.ne_ask)
  | _ => exact quiet rfl rfl

/-! ## Reports -/

theorem isOfCall_foundEvent (a : Artifact α) (waited : Nat) :
    (Retrieval.foundEvent a waited).isOfCall = true := by
  obtain ⟨source, generation, content⟩ := a
  cases content <;> rfl

/-- What a call is about to send is a report of a call. -/
theorem Reachable.isOfCall (h : s.Reachable) {r : Retrieval α} (hr : s.call? i = some r) :
    r.Tells (·.isOfCall = true) :=
  h.tells isOfCall_foundEvent (fun _ _ => rfl) i r hr

/-- The events that calls send are reports of calls. -/
theorem Step.isOfCall_of_ask (h : Step s (.ask i) t sent) (hs : s.Reachable) :
    ∀ e ∈ sent, e.event.isOfCall = true := by
  intro e he
  cases h with
  | ask _ => cases he
  | report hask =>
    cases List.mem_singleton.1 he
    obtain ⟨r, hr, result, waited, hstage⟩ := exists_reporting_of_ask? hask
    exact hs.isOfCall hr result waited _ hstage
  | run _ h => exact absurd rfl (h.ne_ask _)
  | attempt _ h => exact absurd rfl (h.ne_ask _)

theorem RunStep.not_isOfCall {r r' : Run} (h : RunStep s r action r' t sent) :
    ∀ e ∈ sent, e.event.isOfCall = false := by
  intro e he
  have hkind := h.kind_of_mem he
  unfold Event.isOfCall
  cases hk : e.event.kind <;> simp_all

theorem not_isOfCall_lastEvent (a : Attempt α) (how : Attempt.Conclusion) :
    (a.lastEvent how).isOfCall = false := by
  cases how <;> rfl

/-- Among the events of a step only the report of a call is one of a call. -/
theorem Step.filter_isOfCall (h : Step s action t sent) (hs : s.Reachable) :
    (sent.map (·.event)).filter (·.isOfCall) =
      ((s.report? action).map (·.2)).toList := by
  have quiet (hsent : ∀ e ∈ sent, e.event.isOfCall = false) (hnone : s.report? action = none) :
      (sent.map (·.event)).filter (·.isOfCall) = ((s.report? action).map (·.2)).toList := by
    rw [hnone]
    refine List.filter_eq_nil_iff.2 fun event hevent => ?_
    obtain ⟨e, he, rfl⟩ := List.mem_map.1 hevent
    simp [hsent e he]
  cases h with
  | @ask j board hask =>
    obtain ⟨r, move, hr, hmove, -, hannounced⟩ := move_of_ask? hask
    refine quiet (fun e he => nomatch he) ?_
    cases hmove with
    | settle _ => cases hannounced
    | _ => simp [report?, *]
  | @report j board event hask =>
    obtain ⟨r, move, hr, hmove, -, hannounced⟩ := move_of_ask? hask
    cases hmove with
    | @settle result waited event' hstage =>
      cases hannounced
      simp [report?, hr, hstage, hs.isOfCall hr result waited event hstage]
    | _ => cases hannounced
  | start _ =>
    refine quiet (fun e he => ?_) rfl
    cases List.mem_singleton.1 he
    rfl
  | run _ h => exact quiet h.not_isOfCall (report?_eq_none h.ne_ask)
  | attempt ha h =>
    refine quiet (fun e he => ?_) (report?_eq_none h.ne_ask)
    cases h with
    | move hmove =>
      cases Attempt.MoveStep.of_next? hmove with
      | sendPanic hstage =>
        cases List.mem_singleton.1 he
        rw [(hs.signed.attempt ha).panic hstage]
        rfl
      | sendEnd hstage =>
        cases List.mem_singleton.1 he
        rw [(hs.signed.attempt ha).last hstage]
        exact not_isOfCall_lastEvent _ _
      | _ => cases he
    | _ => cases he
  | _ => exact quiet (fun e he => nomatch he) rfl

/-! ## The account of a call -/

/-- The settlings of one call, and its reports. -/
def settlingsOf (i : Nat) (settlings : List (Settling α)) : List (Settling α) :=
  settlings.filter (·.call = i)

def reportsOf (i : Nat) (reports : List (Nat × Event)) : List (Nat × Event) :=
  reports.filter (·.1 = i)

variable {settlings : List (Settling α)} {reports : List (Nat × Event)}

/-- What settles or reports in the step of a call is that call. -/
theorem settlingsOf_append_own : settlingsOf i (settlings ++ (s.settling? (.ask i)).toList) =
    settlingsOf i settlings ++ (s.settling? (.ask i)).toList := by
  unfold settlingsOf
  rw [List.filter_append]
  congr 1
  refine List.filter_eq_self.2 fun x hx => ?_
  cases action_of_settling? (Option.mem_toList.1 hx)
  exact decide_eq_true rfl

theorem reportsOf_append_own : reportsOf i (reports ++ (s.report? (.ask i)).toList) =
    reportsOf i reports ++ (s.report? (.ask i)).toList := by
  unfold reportsOf
  rw [List.filter_append]
  congr 1
  refine List.filter_eq_self.2 fun x hx => ?_
  cases action_of_report? (Option.mem_toList.1 hx)
  exact decide_eq_true rfl

theorem settlingsOf_append_other (h : action ≠ .ask i) :
    settlingsOf i (settlings ++ (s.settling? action).toList) = settlingsOf i settlings := by
  unfold settlingsOf
  rw [List.filter_append, filter_settling_eq_nil h, List.append_nil]

theorem reportsOf_append_other (h : action ≠ .ask i) :
    reportsOf i (reports ++ (s.report? action).toList) = reportsOf i reports := by
  unfold reportsOf
  rw [List.filter_append, filter_report_eq_nil h, List.append_nil]

/-- A call that takes a step of its own settles when it has found or come too late, and reports
after that. -/
theorem accounted_move {saw : Artifact α → Prop} {now : Nat} {poll : Span}
    {move : Retrieval.Move α} (h : Accounted saw i r settlings reports) (hr : s.call? i = some r)
    (hsight : ∀ a, s.sighting? i (.ask i) = some a → saw a)
    (hmove : r.MoveStep now s.slot poll move) :
    Accounted saw i move.retrieval (settlings ++ (s.settling? (.ask i)).toList)
      (reports ++ (s.report? (.ask i)).toList) := by
  cases hmove with
  | tellFound hs =>
    simp only [Accounted, hs] at h
    obtain ⟨-, -, rfl, rfl⟩ := h
    simp [Accounted, settling?, report?, hr, hs]
  | tellLate hs =>
    simp only [Accounted, hs] at h
    obtain ⟨rfl, rfl⟩ := h
    simp [Accounted, settling?, report?, hr, hs]
  | settle hs =>
    simp only [Accounted, hs] at h
    obtain ⟨x, rfl, rfl, rfl, rfl⟩ := h
    simp [Accounted, settling?, report?, hr, hs]
  | find hs hfound =>
    simp only [Accounted, hs] at h
    obtain ⟨rfl, rfl⟩ := h
    have hsaw := hsight _ (sighting?_eq_some_iff.2 ⟨r, rfl, hr, hs, hfound⟩)
    simp [Accounted, settling?, report?, hr, hs, hsaw, (Slot.find?_eq_some_iff.1 hfound).2]
  | arm hs | miss hs _ | park hs _ | giveUp hs _ _ | parkUntil hs _ _ =>
    simp only [Accounted, hs] at h
    obtain ⟨rfl, rfl⟩ := h
    simp [Accounted, settling?, report?, hr, hs]

/-- What holds at all times of the sink and the bus, and of the calls that share them, each of which
has seen some artifacts. -/
structure Books (sink : MessageSink) (saw : Nat → Artifact α → Prop) (s : Service α)
    (settlings : List (Settling α)) (reports : List (Nat × Event)) (sent : List Stamped) :
    Prop where
  takesBatches : s.board.sink.takesBatches = true
  /-- The sink has been given the batches of the calls that failed. -/
  calls : s.board.sink.calls = sink.calls ++ (settlings.filter (·.fails)).map (·.batch)
  /-- What settled was a call, and it came out in one of the three ways. -/
  settled {x : Settling α} : x ∈ settlings → ∃ r, s.call? x.call = some r ∧
    ComesOut (saw x.call) r.code r.timeout x.result x.batch x.event
  accounted {i : Nat} {r : Retrieval α} : s.call? i = some r →
    Accounted (saw i) i r (settlingsOf i settlings) (reportsOf i reports)
  /-- Of a call that was not made there is nothing. -/
  absent {i : Nat} : s.call? i = none → settlingsOf i settlings = [] ∧ reportsOf i reports = []
  /-- The events of calls are their reports. -/
  events : (sent.map (·.event)).filter (·.isOfCall) = reports.map (·.2)

variable {sink : MessageSink} {saw saw' : Nat → Artifact α → Prop}

/-- A call that settles comes out in one of the three ways. -/
theorem Books.comesOut (h : Books sink saw s settlings reports sent) {x : Settling α}
    (hx : s.settling? action = some x) : ∃ r, s.call? x.call = some r ∧
      ComesOut (saw x.call) r.code r.timeout x.result x.batch x.event := by
  obtain rfl := action_of_settling? hx
  obtain ⟨r, hr, hs⟩ := Option.bind_eq_some_iff.1 hx
  refine ⟨r, hr, ?_⟩
  split at hs
  · next a waited hstage =>
    have haccount := h.accounted hr
    simp only [Accounted, hstage] at haccount
    rw [← Option.some.inj hs]
    exact Retrieval.comesOut_found haccount.1 haccount.2.1 r.timeout waited
  · next waited hstage =>
    rw [← Option.some.inj hs]
    exact Retrieval.comesOut_late (saw _) r.code r.timeout waited
  · cases hs

/-- A call that takes no step of its own settles and reports nothing. -/
theorem Books.accounted_other (h : Books sink saw s settlings reports sent)
    (hstep : Step s action t told) (hother : action ≠ .ask i) (hr : s.call? i = some r)
    {r' : Retrieval α} (hr' : t.call? i = some r') :
    Accounted (saw i) i r' (settlingsOf i settlings) (reportsOf i reports) := by
  have haccount := h.accounted hr
  have same (hstage : r'.stage = r.stage) (hcode : r'.code = r.code) :
      Accounted (saw i) i r' (settlingsOf i settlings) (reportsOf i reports) := by
    unfold Accounted at haccount ⊢
    rw [hstage, hcode]
    exact haccount
  cases hstep.callStep hr with
  | still hsame _ _ | publish _ hsame _ _ _ =>
    cases hr'.symm.trans hsame
    exact haccount
  | tick _ ht =>
    subst ht
    cases hr'.symm.trans hr
    exact haccount
  | notify hnotified _ =>
    cases hr'.symm.trans hnotified
    exact same r.stage_notify (SameCall.notify r).code
  | move haction _ _ _ => exact absurd haction hother
  | wake _ hcan hput _ =>
    cases hr'.symm.trans hput
    unfold Retrieval.canWake at hcan
    split at hcan
    · next hs => simpa only [Accounted, hs] using haccount
    · cases hcan
  | abandon haction hput _ =>
    subst haction
    cases hr'.symm.trans hput
    obtain ⟨wake, hs⟩ := Retrieval.exists_stage_of_isParked (hstep.isParked_of_abandon hr)
    simpa only [Accounted, hs] using haccount

/-- Every call is accounted for after an action, with what it sees in it. -/
theorem Books.accounted_step (h : Books sink saw s settlings reports sent)
    (hstep : Step s action t told) (hmono : ∀ i a, saw i a → saw' i a)
    (hsight : ∀ i a, s.sighting? i action = some a → saw' i a) {r' : Retrieval α}
    (hr' : t.call? i = some r') :
    Accounted (saw' i) i r' (settlingsOf i (settlings ++ (s.settling? action).toList))
      (reportsOf i (reports ++ (s.report? action).toList)) := by
  cases hr : s.call? i with
  | none =>
    rw [settlingsOf_append_other (hstep.ne_ask hr), reportsOf_append_other (hstep.ne_ask hr)]
    have hempty := h.absent hr
    simpa only [Accounted, hstep.call?_of_none hr hr'] using hempty
  | some r =>
    by_cases hown : action = .ask i
    · subst hown
      obtain ⟨move, hmove, hmoved⟩ := hstep.of_ask hr
      cases hr'.symm.trans hmoved
      rw [settlingsOf_append_own, reportsOf_append_own]
      exact accounted_move ((h.accounted hr).mono (hmono i)) hr (hsight i) hmove
    · rw [settlingsOf_append_other hown, reportsOf_append_other hown]
      exact (h.accounted_other hstep hown hr hr').mono (hmono i)

/-- One action keeps the books. -/
theorem Books.step (h : Books sink saw s settlings reports sent) (hs : s.Reachable)
    (hstep : Step s action t told) (hmono : ∀ i a, saw i a → saw' i a)
    (hsight : ∀ i a, s.sighting? i action = some a → saw' i a) :
    Books sink saw' t (settlings ++ (s.settling? action).toList)
      (reports ++ (s.report? action).toList) (sent ++ told) where
  takesBatches := (hstep.calls_sink h.takesBatches).1
  calls := by
    rw [(hstep.calls_sink h.takesBatches).2, h.calls, List.filter_append, List.map_append,
      List.append_assoc]
  settled {x} hx := by
    obtain ⟨r, hr, hout⟩ : ∃ r, s.call? x.call = some r ∧
        ComesOut (saw x.call) r.code r.timeout x.result x.batch x.event := by
      rcases List.mem_append.1 hx with hold | hnew
      · exact h.settled hold
      · exact h.comesOut (Option.mem_toList.1 hnew)
    obtain ⟨r', hr', hcode, htimeout⟩ := hstep.exists_call? hr
    rw [← hcode, ← htimeout] at hout
    exact ⟨r', hr', hout.mono (hmono x.call)⟩
  accounted := h.accounted_step hstep hmono hsight
  absent {i} hnone := by
    have hbefore : s.call? i = none := by
      cases hr : s.call? i with
      | none => rfl
      | some r =>
        obtain ⟨r', hr', -⟩ := hstep.exists_call? hr
        cases hr'.symm.trans hnone
    rw [settlingsOf_append_other (hstep.ne_ask hbefore),
      reportsOf_append_other (hstep.ne_ask hbefore)]
    exact h.absent hbefore
  events := by
    rw [List.map_append, List.filter_append, h.events, List.map_append, hstep.filter_isOfCall hs]
    cases s.report? action <;> rfl

/-- The books of a whole history. -/
theorem books_of_steps? {config : Config} {text : String} (hbatches : sink.takesBatches = true)
    (hsteps : (ofConfig config sink text : Service α).steps? actions = some (s, sent)) :
    Books sink (fun i a => a ∈ (ofConfig config sink text).observe (sighting? i) actions) s
      ((ofConfig config sink text).observe settling? actions)
      ((ofConfig config sink text).observe report? actions) sent := by
  refine steps?_induct (motive := fun actions s sent =>
    Books sink (fun i a => a ∈ (ofConfig config sink text).observe (sighting? i) actions) s
      ((ofConfig config sink text).observe settling? actions)
      ((ofConfig config sink text).observe report? actions) sent) ?_ ?_ hsteps
  · intro first u v action told more hfirst hone hbooks
    rw [observe_snoc hfirst hone, observe_snoc hfirst hone]
    refine hbooks.step ⟨config, sink, text, first, told, hfirst⟩ (.of_step? hone) ?_ ?_
    · intro i a ha
      rw [observe_snoc hfirst hone]
      exact List.mem_append_left _ ha
    · intro i a ha
      rw [observe_snoc hfirst hone]
      exact List.mem_append_right _ (Option.mem_toList.2 ha)
  · exact
      { takesBatches := hbatches
        calls := (List.append_nil _).symm
        settled := nofun
        accounted := nofun
        absent := fun _ => ⟨rfl, rfl⟩
        events := rfl }

/-! ## The law -/

/-- What the sink and the bus have been told in a history `actions` from `origin` to `s`, in which
`sent` was sent: of each call that fails one batch, and of each call that returns one event. -/
structure BatchEach (origin : Service α) (actions : List (Action α)) (s : Service α)
    (sent : List Stamped) : Prop where
  /-- The sink was called once for each call that failed, in the order in which they settled. -/
  calls : s.board.sink.calls = origin.board.sink.calls ++
    ((origin.observe settling? actions).filter (·.fails)).map (·.batch)
  /-- So the log is one batch after the other. -/
  log : s.board.sink.log.entries.toList = origin.board.sink.log.entries.toList ++
    ((origin.observe settling? actions).filter (·.fails)).flatMap (·.batch)
  /-- A call settles only once. -/
  once (i : Nat) : (settlingsOf i (origin.observe settling? actions)).length ≤ 1
  /-- It comes out with an artifact that it has seen in the slot, or too late. -/
  comesOut {x : Settling α} : x ∈ origin.observe settling? actions →
    ∃ r, s.call? x.call = some r ∧
      ComesOut (Shown x.call origin actions) r.code r.timeout x.result x.batch x.event
  /-- A call that has returned has settled with what it returned, and has reported that. -/
  returned {i : Nat} {r : Retrieval α} {result : RetrievalResult α} {waited : Nat} :
    s.call? i = some r → r.result? = some (result, waited) →
      ∃ x, settlingsOf i (origin.observe settling? actions) = [x] ∧ x.result = result ∧
        reportsOf i (origin.observe report? actions) = [(i, x.event)]
  /-- A call that has not returned has reported nothing. -/
  pending {i : Nat} {r : Retrieval α} : s.call? i = some r → r.result? = none →
    reportsOf i (origin.observe report? actions) = []
  /-- A call that was given up has settled and reported nothing. -/
  abandoned {i : Nat} {r : Retrieval α} : s.call? i = some r → r.stage = .abandoned →
    settlingsOf i (origin.observe settling? actions) = [] ∧
      reportsOf i (origin.observe report? actions) = []
  /-- The bus carries the reports and no other event of a call. -/
  events : (sent.map (·.event)).filter (·.isOfCall) =
    (origin.observe report? actions).map (·.2)

/-- However many calls share a sink that takes a batch as one unit, and whatever happens between
their steps, each call that fails tells the sink once, with one batch: all diagnostics of the
artifact that it has found, or the news that it came too late. A call that succeeds or is given up
tells the sink nothing. Each call that returns has been reported on the bus once, in the way in
which it returned. -/
theorem one_batch_for_each_failure {config : Config} {text : String}
    (hbatches : sink.takesBatches = true)
    (hsteps : (ofConfig config sink text : Service α).steps? actions = some (s, sent)) :
    BatchEach (ofConfig config sink text) actions s sent := by
  have hbooks := books_of_steps? hbatches hsteps
  refine
    { calls := hbooks.calls
      log := ?_
      once := ?_
      comesOut := ?_
      returned := ?_
      pending := ?_
      abandoned := ?_
      events := hbooks.events }
  · simp [MessageSink.log, hbooks.calls, ofConfig, List.flatMap_def]
  · intro i
    cases hr : s.call? i with
    | none => simp [(hbooks.absent hr).1]
    | some r => exact (hbooks.accounted hr).length_le_one
  · intro x hx
    obtain ⟨r, hr, hout⟩ := hbooks.settled hx
    exact ⟨r, hr, hout.mono fun a ha => shown_of_mem ha⟩
  · intro i r result waited hr hresult
    exact (hbooks.accounted hr).of_result? hresult
  · intro i r hr hresult
    exact (hbooks.accounted hr).reports_eq_nil hresult
  · intro i r hr hs
    simpa only [Accounted, hs] using hbooks.accounted hr

/-- Three calls at once: the first one finds diagnostics, the second one comes too late, and the
third one is given up. The second one settles first, though it is reported last. -/
def sharingCalls : List (Action Nat) :=
  [Action.start, Action.tick, Action.poll 1] ++ List.replicate 6 (Action.proceed 1) ++
    [Action.take 1, Action.compiled 1 (.refused (.diagnostics [.error "bad", .error "odd"])),
      Action.finish 1, Action.finish 1, Action.retrieve "x" "a" (.ofMillis 100),
      Action.retrieve "y" "b" (.ofMillis 0), Action.retrieve "z" "c" (.ofMillis 100),
      Action.ask 0, Action.ask 0] ++ List.replicate 4 (Action.ask 1) ++
    [Action.ask 0, Action.ask 0, Action.ask 1, Action.ask 2, Action.ask 2, Action.ask 2,
      Action.abandon 2]

theorem one_batch_for_each_failure_sharing : ∃ s : Service Nat, ∃ sent r,
    (ofConfig {} {} "a" : Service Nat).steps? sharingCalls = some (s, sent) ∧
    s.board.sink.calls = [[.error "Time out on compiling expression, b"],
      [.error "bad", .error "odd"]] ∧
    ((sent.map (·.event)).filter (·.isOfCall)).map (·.kind) =
      [.retrieveFailed, .retrieveTimedOut] ∧
    s.call? 2 = some r ∧ r.stage = .abandoned ∧
    BatchEach (ofConfig {} {} "a") sharingCalls s sent := by
  have hrun : ((ofConfig {} {} "a" : Service Nat).steps? sharingCalls).bind
      (fun (s, sent) => (s.call? 2).map fun r => (s.board.sink.calls,
        ((sent.map (·.event)).filter (·.isOfCall)).map (·.kind), r.stage)) =
      some ([[.error "Time out on compiling expression, b"], [.error "bad", .error "odd"]],
        [.retrieveFailed, .retrieveTimedOut], .abandoned) := by
    with_unfolding_all exact rfl
  obtain ⟨⟨s, sent⟩, hsteps, hrest⟩ := Option.bind_eq_some_iff.1 hrun
  obtain ⟨r, hr, hseen⟩ := Option.map_eq_some_iff.1 hrest
  obtain ⟨hcalls, hkinds, hstage⟩ : _ ∧ _ ∧ _ := by simpa only [Prod.mk.injEq] using hseen
  exact ⟨s, sent, r, hsteps, hcalls, hkinds, hr, hstage, one_batch_for_each_failure rfl hsteps⟩

end Service

end CompileWatch
