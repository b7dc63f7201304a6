import CompileWatch.Proofs.Histories
import CompileWatch.Proofs.Retrievals

/-!
# Who sends an event

The events of an attempt and of a retrieval are made before they are sent. `Signed` says that what
waits to be sent is what was made; with it, every event on the bus is traced to the run, the attempt
or the retrieval that sent it. In particular only the run itself, and its start, speak of a run.
-/
namespace CompileWatch

/-- The event that an attempt is about to send is its own. -/
structure Attempt.Signed {α : Type} (a : Attempt α) : Prop where
  panic {text : String} {e : Stamped} : a.stage = .sendingPanic text e →
    e.event = a.panicEvent text
  last {how : Attempt.Conclusion} {e : Stamped} : a.stage = .sending how e →
    e.event = a.lastEvent how

/-- Has every event that a retrieval is about to send this property? -/
def Retrieval.Tells {α : Type} (P : Event → Prop) (r : Retrieval α) : Prop :=
  ∀ result waited event, r.stage = .reporting result waited event → P event

/-- The event that a retrieval is about to send speaks of no run. -/
def Retrieval.Signed {α : Type} (r : Retrieval α) : Prop :=
  ∀ result waited event, r.stage = .reporting result waited event → event.run = none

namespace Service

variable {α : Type} {s t : Service α} {action : Action α} {sent : List Stamped} {i : Nat}
  {P : Event → Prop}

/-! ## Attempts -/

theorem Change.signed {a a' : Attempt α} (h : Change s a a') (ha : a.Signed) : a'.Signed := by
  cases h with
  | touch h =>
    cases h with
    | same => exact ha
    | cancel | callOff | note _ => exact ⟨fun hs => ha.panic hs, fun hs => ha.last hs⟩
  | take _ =>
    unfold taken
    split <;> constructor <;> intro _ _ hs <;> cases hs
  | @answer outcome _ =>
    have hstage : (answered s.now outcome a).stage = a.stageAfter outcome := rfl
    constructor <;> intro _ _ hs <;> rw [hstage] at hs
    all_goals
      unfold Attempt.stageAfter at hs
      split at hs <;> cases hs
  | move h =>
    cases h with
    | stampPanic _ | stampEnd _ =>
      constructor <;> intro _ _ hs <;> cases hs
      rfl
    | _ => constructor <;> intro _ _ hs <;> cases hs

/-! ## Retrievals -/

theorem run_foundEvent (a : Artifact α) (waited : Nat) :
    (Retrieval.foundEvent a waited).run = none := by
  unfold Retrieval.foundEvent
  dsimp only
  split <;> rfl

/-- A property of the two sorts of events that retrievals make is one of all that they tell. -/
theorem tells_move (hfound : ∀ (a : Artifact α) waited, P (Retrieval.foundEvent a waited))
    (hlate : ∀ code waited, P (Retrieval.timeoutEvent code waited)) {r : Retrieval α}
    {move : Retrieval.Move α} {now : Nat} {slot : Slot α} {poll : Span}
    (h : r.MoveStep now slot poll move) : move.retrieval.Tells P := by
  intro result waited event hs
  cases h with
  | @tellFound a waited' _ =>
    cases hs
    exact hfound a waited
  | @tellLate waited' _ =>
    cases hs
    exact hlate r.code waited
  | _ => cases hs

/-- A retrieval that was not there before has just begun. -/
theorem Step.call?_of_none (h : Step s action t sent) (hnone : s.call? i = none)
    {r : Retrieval α} (hr : t.call? i = some r) : r.stage = .arming := by
  -- where one retrieval is put in its place, no other one appears
  have put {j : Nat} {b : Board α} {r₀ r₁ : Retrieval α} (hr₀ : s.board.retrievals[j]? = some r₀)
      (hput : ∀ k, b.retrievals[k]? = if k = j then some r₁ else s.board.retrievals[k]?)
      (hb : b.retrievals[i]? = some r) : r.stage = .arming := by
    rw [hput i] at hb
    split at hb
    · next hij =>
      subst hij
      cases hr₀.symm.trans hnone
    · cases hb.symm.trans hnone
  cases h with
  | retrieve =>
    have hpush := Array.getElem?_push.symm.trans hr
    split at hpush
    · cases hpush
      rfl
    · cases hpush.symm.trans hnone
  | ask hask | report hask =>
    obtain ⟨r₀, move, hr₀, -, -, -, hput⟩ := Board.of_ask? hask
    exact put hr₀ hput hr
  | wake hwake =>
    obtain ⟨r₀, hr₀, -, rfl⟩ := Board.of_wake? hwake
    exact put hr₀ (Board.retrievals_put hr₀ _) hr
  | abandon habandon =>
    obtain ⟨r₀, hr₀, rfl⟩ := Board.of_abandon? habandon
    exact put hr₀ (Board.retrievals_put hr₀ _) hr
  | run _ h =>
    have hsame : t.call? i = s.call? i := congrArg (·[i]?) h.board.1
    cases hr.symm.trans (hsame.trans hnone)
  | @attempt a _ _ _ _ _ h =>
    cases h with
    | @move move _ =>
      have hnone' : s.board.retrievals[i]? = none := hnone
      have hnotify : (s.board.retrievals.map (·.notify))[i]? = none := by
        rw [Array.getElem?_map, hnone', Option.map_none]
      have hsame : (s.afterMove a move).call? i = none := by
        rw [call?, board_afterMove]
        split
        · exact hnotify
        · exact hnone'
      cases hr.symm.trans hsame
    | _ => cases hr.symm.trans hnone
  | _ => cases hr.symm.trans hnone

/-- A retrieval sends what it had to report. -/
theorem exists_reporting_of_ask? {b c : Board α} {event : Event}
    (h : b.ask? i = some (c, some event)) :
    ∃ r, b.retrievals[i]? = some r ∧ ∃ result waited, r.stage = .reporting result waited event := by
  unfold Board.ask? at h
  split at h
  · cases h
  · next r hr =>
    obtain ⟨move, hmove, heq⟩ := Option.map_eq_some_iff.1 h
    obtain ⟨-, hannounced⟩ := Prod.mk.inj heq
    refine ⟨r, hr, ?_⟩
    cases Retrieval.MoveStep.of_next? hmove with
    | settle hs => cases hannounced; exact ⟨_, _, hs⟩
    | _ => cases hannounced

/-- What a step makes of a retrieval tells the same sort of events. -/
theorem CallStep.tells (hfound : ∀ (a : Artifact α) waited, P (Retrieval.foundEvent a waited))
    (hlate : ∀ code waited, P (Retrieval.timeoutEvent code waited)) {r r' : Retrieval α}
    (h : CallStep i s r action t) (hcall : s.call? i = some r) (hr : r.Tells P)
    (hr' : t.call? i = some r') : r'.Tells P := by
  have same (hsame : t.call? i = some r) : r'.Tells P := by
    cases hr'.symm.trans hsame
    exact hr
  cases h with
  | still hsame _ _ | publish _ hsame _ _ _ => exact same hsame
  | tick _ ht =>
    subst ht
    exact same hcall
  | notify hnotified _ =>
    cases hr'.symm.trans hnotified
    intro result waited event hs
    refine hr result waited event ?_
    rw [← hs]
    unfold Retrieval.notify
    split <;> rfl
  | move _ hmove hmoved _ =>
    cases hr'.symm.trans hmoved
    exact tells_move hfound hlate hmove
  | wake _ _ hput _ | abandon _ hput _ =>
    cases hr'.symm.trans hput
    intro _ _ _ hs
    cases hs

/-- In every state, retrievals tell only events of the two sorts that they make. -/
theorem Reachable.tells (hfound : ∀ (a : Artifact α) waited, P (Retrieval.foundEvent a waited))
    (hlate : ∀ code waited, P (Retrieval.timeoutEvent code waited)) (h : s.Reachable) :
    ∀ i r, s.call? i = some r → r.Tells P := by
  obtain ⟨config, sink, text, hs⟩ := h
  refine hs.induct (motive := fun u => ∀ i r, u.call? i = some r → r.Tells P) ?_
    (fun _ _ hr => nomatch hr)
  intro u v a sent hu hone i r' hr'
  have hstep := Step.of_step? hone
  cases hr : u.call? i with
  | some r => exact (hstep.callStep hr).tells hfound hlate hr (hu i r hr) hr'
  | none =>
    intro _ _ _ hs
    cases (hstep.call?_of_none hr hr').symm.trans hs

/-! ## All together -/

/-- What waits to be sent is what was made. -/
structure Signed (s : Service α) : Prop where
  attempt {g : Generation} {a : Attempt α} : s.attempt? g = some a → a.Signed
  call {i : Nat} {r : Retrieval α} : s.call? i = some r → r.Signed

theorem Signed.step (h : Signed s) (hstep : Step s action t sent) : Signed t where
  attempt {g a'} ha' := by
    rcases hstep.attempt? g with hrel | ⟨r, r', text, -, -, -, -, hnew⟩
    · rw [ha'] at hrel
      obtain ⟨a, ha, hchange⟩ := exists_of_rel_some hrel
      exact hchange.signed (h.attempt ha)
    · rw [ha'] at hnew
      cases hnew
      constructor <;> intro _ _ hs <;> cases hs
  call {i r'} hr' := by
    cases hr : s.call? i with
    | some r =>
      exact (hstep.callStep hr).tells (P := (·.run = none)) run_foundEvent (fun _ _ => rfl) hr
        (h.call hr) hr'
    | none =>
      intro _ _ _ hs
      cases (hstep.call?_of_none hr hr').symm.trans hs

theorem signed_ofConfig (config : Config) (sink : MessageSink) (text : String) :
    Signed (ofConfig config sink text : Service α) where
  attempt h := nomatch h
  call h := nomatch h

theorem Reachable.signed (h : s.Reachable) : Signed s := by
  obtain ⟨config, sink, text, hs⟩ := h
  exact hs.induct (fun hu hstep => hu.step (Step.of_step? hstep)) (signed_ofConfig config sink text)

/-- Who sends the event `e` in a step. -/
inductive SentBy (s : Service α) (action : Action α) (t : Service α) (sent : List Stamped)
    (e : Stamped) : Prop
  | run {r r' : Run} : s.run? r.id = some r → RunStep s r action r' t sent →
      e.event.run = some r.id → SentBy s action t sent e
  | start : action = .start → e.event = runEvent .engineStarted (s.runs.length + 1) →
      SentBy s action t sent e
  | panic {a : Attempt α} {text : String} : action = .finish a.generation →
      s.attempt? a.generation = some a → a.stage = .sendingPanic text e →
      e.event = a.panicEvent text → SentBy s action t sent e
  | last {a : Attempt α} {how : Attempt.Conclusion} : action = .finish a.generation →
      s.attempt? a.generation = some a → a.stage = .sending how e →
      e.event = a.lastEvent how → SentBy s action t sent e
  | retrieval {i : Nat} : action = .ask i → e.event.run = none → SentBy s action t sent e

theorem RunStep.run_of_mem {r r' : Run} (h : RunStep s r action r' t sent) {e : Stamped}
    (he : e ∈ sent) : e.event.run = some r.id := by
  cases h
  case announceChange | announceSuperseded | announceStart | announceGrace | announceEnd =>
    cases List.mem_singleton.1 he
    rfl
  all_goals cases he

/-- A run tells of a change, of the attempts that it starts and displaces, and of its end. -/
theorem RunStep.kind_of_mem {r r' : Run} (h : RunStep s r action r' t sent) {e : Stamped}
    (he : e ∈ sent) : e.event.kind ∈ [EventKind.sourceChanged, .attemptSuperseded,
      .attemptStarting, .graceExceeded, .engineStopped] := by
  cases h
  case announceChange | announceSuperseded | announceStart | announceGrace | announceEnd =>
    cases List.mem_singleton.1 he
    simp [runEvent, Event.withElapsed]
  all_goals cases he

/-- Every event that is sent has a sender. -/
theorem Step.sentBy (h : Step s action t sent) (hs : Signed s) {e : Stamped} (he : e ∈ sent) :
    SentBy s action t sent e := by
  cases h with
  | start _ =>
    cases List.mem_singleton.1 he
    exact .start rfl rfl
  | @report i board event hask =>
    cases List.mem_singleton.1 he
    obtain ⟨r, hr, result, waited, hstage⟩ := exists_reporting_of_ask? hask
    exact .retrieval rfl (hs.call hr result waited event hstage)
  | run hr h => exact .run hr h (h.run_of_mem he)
  | attempt ha h =>
    cases h with
    | move hmove =>
      cases Attempt.MoveStep.of_next? hmove with
      | sendPanic hstage =>
        cases List.mem_singleton.1 he
        exact .panic rfl ha hstage ((hs.attempt ha).panic hstage)
      | sendEnd hstage =>
        cases List.mem_singleton.1 he
        exact .last rfl ha hstage ((hs.attempt ha).last hstage)
      | _ => cases he
    | _ => cases he
  | _ => cases he

/-! ## The moment of an event -/

/-- A step sends at most one event. -/
theorem Step.sent_eq (h : Step s action t sent) : sent = [] ∨ ∃ e, sent = [e] := by
  cases h with
  | report _ | start _ => exact .inr ⟨_, rfl⟩
  | run _ h =>
    cases h
    case announceChange | announceSuperseded | announceStart | announceGrace | announceEnd =>
      exact .inr ⟨_, rfl⟩
    all_goals exact .inl rfl
  | attempt _ h =>
    cases h with
    | @move move _ =>
      cases move.sent with
      | none => exact .inl rfl
      | some e => exact .inr ⟨e, rfl⟩
    | _ => exact .inl rfl
  | _ => exact .inl rfl

/-- An event that was sent was sent by one action: what was sent before it was sent before that
action, and what was sent after it, after that. -/
theorem exists_of_sent {actions : List (Action α)} {first last : List Stamped} {e : Stamped}
    (hsteps : s.steps? actions = some (t, first ++ e :: last)) :
    ∃ before action after u v, actions = before ++ action :: after ∧
      s.steps? before = some (u, first) ∧ u.step? action = some (v, [e]) ∧
      v.steps? after = some (t, last) := by
  induction actions generalizing s first with
  | nil => simp at hsteps
  | cons a rest ih =>
    obtain ⟨u, now, more, hone, hrest⟩ := steps?_cons_eq_some hsteps
    have hsent := sent_of_steps?_cons hsteps hone hrest
    -- the rest of the history begins with one more action
    have later {first' : List Stamped} (hmore : more = first' ++ e :: last)
        (hfirst : first = now ++ first') : ∃ before action after u v,
        a :: rest = before ++ action :: after ∧ s.steps? before = some (u, first) ∧
        u.step? action = some (v, [e]) ∧ v.steps? after = some (t, last) := by
      obtain ⟨before, action, after, w, v, rfl, hbefore, haction, hafter⟩ := ih (hmore ▸ hrest)
      exact ⟨a :: before, action, after, w, v, rfl,
        by simp [steps?_cons, hone, hbefore, hfirst], haction, hafter⟩
    rcases (Step.of_step? hone).sent_eq with rfl | ⟨x, rfl⟩
    · exact later hsent.symm rfl
    · cases first with
      | nil =>
        obtain ⟨rfl, rfl⟩ := List.cons.inj hsent
        exact ⟨[], a, rest, s, u, rfl, rfl, hone, hrest⟩
      | cons y first' =>
        obtain ⟨rfl, hmore⟩ := List.cons.inj hsent
        exact later hmore.symm rfl

end Service

end CompileWatch
