import CompileWatch.Proofs.Changes

/-!
# What a step means to a retrieval

The view of a step for one retrieval. `CallStep` lists the few things that can happen to it: the
clock goes on, the slot takes an artifact, the retrieval is notified, it takes a step of its own,
it wakes up, it is given up; or the step does not concern it.
-/
namespace CompileWatch

/-! ## Steps of a retrieval of its own -/

/-- The steps that a retrieval takes of its own accord, one constructor for each case. -/
inductive Retrieval.MoveStep {α : Type} (now : Nat) (slot : Slot α) (poll : Span)
    (r : Retrieval α) : Retrieval.Move α → Prop
  | arm : r.stage = .arming →
      MoveStep now slot poll r { retrieval := { r with stage := .checking, notified := false } }
  | find {a : Artifact α} : r.stage = .checking → slot.find? r.code = some a →
      MoveStep now slot poll r { retrieval := { r with stage := .matched a (now - r.begun) } }
  | miss : r.stage = .checking → slot.find? r.code = none →
      MoveStep now slot poll r { retrieval := { r with stage := .testing } }
  | park : r.stage = .testing → Retrieval.deadline? r.begun r.timeout = none →
      MoveStep now slot poll r { retrieval := { r with stage := .parked (now + poll.ticks) } }
  | giveUp {deadline : Nat} : r.stage = .testing →
      Retrieval.deadline? r.begun r.timeout = some deadline → deadline ≤ now →
      MoveStep now slot poll r { retrieval := { r with stage := .overdue (now - r.begun) } }
  | parkUntil {deadline : Nat} : r.stage = .testing →
      Retrieval.deadline? r.begun r.timeout = some deadline → now < deadline →
      MoveStep now slot poll r
        { retrieval := { r with stage := .parked (min (now + poll.ticks) deadline) } }
  | tellFound {a : Artifact α} {waited : Nat} : r.stage = .matched a waited →
      MoveStep now slot poll r
        { retrieval := { r with
            stage := .reporting (Retrieval.resultOf a) waited (Retrieval.foundEvent a waited) }
          told := if a.diagnostics.isEmpty then none else some a.diagnostics }
  | tellLate {waited : Nat} : r.stage = .overdue waited →
      MoveStep now slot poll r
        { retrieval := { r with
            stage := .reporting (.error (.timedOut r.code r.timeout)) waited
              (Retrieval.timeoutEvent r.code waited) }
          told := some [.error (RetrievalFailure.timedOut r.code r.timeout).message] }
  | settle {result : RetrievalResult α} {waited : Nat} {event : Event} :
      r.stage = .reporting result waited event →
      MoveStep now slot poll r
        { retrieval := { r with stage := .settled result waited }, announced := some event }

theorem Retrieval.MoveStep.of_next? {α : Type} {now : Nat} {slot : Slot α} {poll : Span}
    {r : Retrieval α} {move : Retrieval.Move α} (h : r.next? now slot poll = some move) :
    MoveStep now slot poll r move := by
  unfold Retrieval.next? at h
  -- the deadline gets a name first: the cases below must not compute it
  obtain ⟨deadline?, hd⟩ : ∃ d, Retrieval.deadline? r.begun r.timeout = d := ⟨_, rfl⟩
  rw [hd] at h
  split at h
  case h_1 hs => cases h; exact .arm hs
  case h_2 hs =>
    split at h
    · next a hfound => cases h; exact .find hs hfound
    · next hfound => cases h; exact .miss hs hfound
  case h_3 hs =>
    cases deadline? with
    | none => cases h; exact .park hs hd
    | some deadline =>
      simp only at h
      split at h
      · next hle => cases h; exact .giveUp hs hd hle
      · next hlt => cases h; exact .parkUntil hs hd (Nat.not_le.1 hlt)
  case h_4 a waited hs => cases h; exact .tellFound hs
  case h_5 waited hs => cases h; exact .tellLate hs
  case h_6 result waited event hs => cases h; exact .settle hs
  all_goals cases h

/-- Each of them is what the retrieval does in its stage. -/
theorem Retrieval.MoveStep.next? {α : Type} {now : Nat} {slot : Slot α} {poll : Span}
    {r : Retrieval α} {move : Retrieval.Move α} (h : MoveStep now slot poll r move) :
    r.next? now slot poll = some move := by
  unfold Retrieval.next?
  obtain ⟨deadline?, hd⟩ : ∃ d, Retrieval.deadline? r.begun r.timeout = d := ⟨_, rfl⟩
  rw [hd]
  cases h with
  | arm hs => rw [hs]
  | find hs hfound => rw [hs]; simp only [hfound]
  | miss hs hfound => rw [hs]; simp only [hfound]
  | park hs hnone => cases hd.symm.trans hnone; rw [hs]
  | giveUp hs hsome hle => cases hd.symm.trans hsome; rw [hs]; exact if_pos hle
  | parkUntil hs hsome hlt => cases hd.symm.trans hsome; rw [hs]; exact if_neg (Nat.not_le.2 hlt)
  | tellFound hs => rw [hs]
  | tellLate hs => rw [hs]
  | settle hs => rw [hs]

/-- A retrieval keeps what it was called with. -/
theorem Retrieval.MoveStep.kept {α : Type} {now : Nat} {slot : Slot α} {poll : Span}
    {r : Retrieval α} {move : Retrieval.Move α} (h : MoveStep now slot poll r move) :
    move.retrieval.code = r.code ∧ move.retrieval.timeout = r.timeout ∧
      move.retrieval.begun = r.begun := by
  cases h <;> exact ⟨rfl, rfl, rfl⟩

namespace Board

variable {α : Type} {b c : Board α}

/-- Only the retrieval that is put in its place changes. -/
theorem retrievals_put {j : Nat} {r : Retrieval α} (hr : b.retrievals[j]? = some r)
    (r' : Retrieval α) (i : Nat) :
    (b.put j r').retrievals[i]? = if i = j then some r' else b.retrievals[i]? := by
  have hj : j < b.retrievals.size := by
    obtain ⟨hlt, -⟩ := Array.getElem?_eq_some_iff.1 hr
    exact hlt
  unfold put
  rw [Array.getElem?_setIfInBounds]
  by_cases h : i = j
  · subst h
    simp [hj]
  · simp [h, Ne.symm h]

theorem of_ask? {j : Nat} {event : Option Event} (h : b.ask? j = some (c, event)) :
    ∃ r move, b.retrievals[j]? = some r ∧ r.MoveStep b.now b.slot b.poll move ∧
      c.now = b.now ∧ c.poll = b.poll ∧
      ∀ i, c.retrievals[i]? = if i = j then some move.retrieval else b.retrievals[i]? := by
  unfold ask? at h
  split at h
  · cases h
  · next r hr =>
    obtain ⟨move, hmove, heq⟩ := Option.map_eq_some_iff.1 h
    cases heq
    refine ⟨r, move, hr, .of_next? hmove, ?_⟩
    have hput := retrievals_put hr move.retrieval
    cases move.told with
    | none => exact ⟨rfl, rfl, hput⟩
    | some batch => exact ⟨rfl, rfl, hput⟩

theorem of_wake? {j : Nat} (h : b.wake? j = some c) :
    ∃ r, b.retrievals[j]? = some r ∧ r.canWake b.now = true ∧
      c = b.put j { r with stage := .arming } := by
  unfold wake? at h
  split at h
  · cases h
  · next r hr =>
    split at h
    · next hcan => cases h; exact ⟨r, hr, hcan, rfl⟩
    · cases h

theorem of_abandon? {j : Nat} (h : b.abandon? j = some c) :
    ∃ r, b.retrievals[j]? = some r ∧ c = b.put j { r with stage := .abandoned } := by
  unfold abandon? at h
  split at h
  · cases h
  · next r hr =>
    split at h
    · cases h; exact ⟨r, hr, rfl⟩
    · cases h

end Board

namespace Service

variable {α : Type} {s t : Service α} {action : Action α} {sent : List Stamped} {i : Nat}

def call? (s : Service α) (i : Nat) : Option (Retrieval α) := s.board.retrievals[i]?

/-- Has the slot taken an artifact of which the retrievals have not been told? -/
def Publishing (s : Service α) : Prop :=
  ∃ g a succeeded, s.attempt? g = some a ∧ a.stage = .stored succeeded

/-- Neither the clock nor what the slot holds is changed by an action. -/
structure Still (s : Service α) (action : Action α) (t : Service α) : Prop where
  now : t.now = s.now
  latest : t.slot.latest = s.slot.latest
  accepted : s.accepted? action = none

/-- What an action can mean to the `i`-th retrieval `r`. -/
inductive CallStep (i : Nat) (s : Service α) (r : Retrieval α) (action : Action α)
    (t : Service α) : Prop
  | still : t.call? i = some r → Still s action t → (s.Publishing → t.Publishing) →
      CallStep i s r action t
  | tick : action = .tick → t = { s with board := s.board.tick } → CallStep i s r action t
  | publish {artifact : Artifact α} : s.accepted? action = some artifact →
      t.call? i = some r → t.now = s.now → t.slot.latest = some artifact → t.Publishing →
      CallStep i s r action t
  | notify : t.call? i = some r.notify → Still s action t → CallStep i s r action t
  | move {move : Retrieval.Move α} : action = .ask i →
      r.MoveStep s.now s.slot s.board.poll move → t.call? i = some move.retrieval →
      Still s action t → CallStep i s r action t
  | wake : action = .wake i → r.canWake s.now = true →
      t.call? i = some { r with stage := .arming } → Still s action t → CallStep i s r action t
  | abandon : action = .abandon i → t.call? i = some { r with stage := .abandoned } →
      Still s action t → CallStep i s r action t

theorem Publishing.of_touch (h : s.Publishing)
    (htouch : ∀ g a, s.attempt? g = some a → ∃ a', t.attempt? g = some a' ∧ Touch a a') :
    t.Publishing := by
  obtain ⟨g, a, succeeded, ha, hstage⟩ := h
  obtain ⟨a', ha', h⟩ := htouch g a ha
  exact ⟨g, a', succeeded, ha', h.kept.2.2.2.trans hstage⟩

theorem RunStep.publishing {r r' : Run} (h : RunStep s r action r' t sent) (hs : s.Publishing) :
    t.Publishing := by
  refine hs.of_touch fun g a ha => ?_
  rcases h.attempt? g with hrel | ⟨-, -, hnone, -⟩
  · rw [ha] at hrel
    exact exists_of_some_rel hrel
  · rw [ha] at hnone
    cases hnone

/-- Only the attempt that has published can tell the retrievals. -/
theorem AttemptStep.publishing {a a' : Attempt α} (h : AttemptStep s a action a' t sent)
    (ha : s.attempt? a.generation = some a) (hstage : ∀ succeeded, a.stage ≠ .stored succeeded)
    (hs : s.Publishing) : t.Publishing := by
  obtain ⟨g, b, succeeded, hb, hstored⟩ := hs
  have hg : g ≠ a.generation := by
    rintro rfl
    rw [ha] at hb
    cases hb
    exact hstage succeeded hstored
  exact ⟨g, b, succeeded, by rw [h.attempt? ha, if_neg hg, hb], hstored⟩

/-- A run has nothing to do with the retrievals. -/
theorem RunStep.board {r r' : Run} (h : RunStep s r action r' t sent) :
    t.board.retrievals = s.board.retrievals ∧ t.board.poll = s.board.poll ∧ Still s action t := by
  cases h <;> exact ⟨rfl, rfl, rfl, rfl, rfl⟩

theorem board_afterMove (s : Service α) (a : Attempt α) (move : Attempt.Move α) :
    (s.afterMove a move).board =
      if move.notifies then { s.board with slot := move.slot }.notify
      else { s.board with slot := move.slot } := by
  unfold afterMove
  dsimp only
  split <;> split <;> rfl

/-- The step of an attempt concerns the retrievals where the slot takes an artifact, and where they
are told of it. -/
theorem AttemptStep.callStep {a a' : Attempt α} (h : AttemptStep s a action a' t sent)
    (ha : s.attempt? a.generation = some a) {r : Retrieval α} (hr : s.call? i = some r) :
    CallStep i s r action t := by
  have hpublishing := h.publishing ha
  have hput := h.attempt? ha a.generation
  rw [if_pos rfl] at hput
  cases h with
  | take hs => exact .still hr ⟨rfl, rfl, rfl⟩ (hpublishing (by simp [hs]))
  | cancelItself hs => exact .still hr ⟨rfl, rfl, rfl⟩ (hpublishing (by simp [hs]))
  | answer hs => exact .still hr ⟨rfl, rfl, rfl⟩ (hpublishing (by simp [hs]))
  | @move move hmove =>
    have hboard := s.board_afterMove a move
    have silent (hstage : ∀ artifact, a.stage ≠ .offering artifact) :
        s.accepted? (.finish a.generation) = none := by
      refine Option.eq_none_iff_forall_ne_some.2 fun artifact hacc => ?_
      obtain ⟨g, b, hg, hb, hoffering, -⟩ := accepted?_eq_some_iff.1 hacc
      cases hg
      rw [ha] at hb
      cases hb
      exact hstage artifact hoffering
    have still (hnotifies : move.notifies = false) (hslot : move.slot = s.slot)
        (haccepted : s.accepted? (.finish a.generation) = none)
        (hstage : ∀ succeeded, a.stage ≠ .stored succeeded) :
        CallStep i s r (.finish a.generation) (s.afterMove a move) := by
      have hsame : (s.afterMove a move).board = s.board := by
        rw [hboard, hnotifies, hslot]
        rfl
      refine .still ?_ ⟨?_, ?_, haccepted⟩ (hpublishing hstage)
      · rw [← hr, call?, hsame]; rfl
      · rw [now, hsame]; rfl
      · rw [slot, hsame]; rfl
    cases Attempt.MoveStep.of_next? hmove with
    | accepted hs hv =>
      refine .publish (accepted?_eq_some_iff.2 ⟨_, a, rfl, ha, hs, hv⟩) ?_ ?_ ?_
        ⟨_, _, _, hput, rfl⟩
      · rw [← hr, call?, hboard]; rfl
      · rw [now, hboard]; rfl
      · rw [slot, hboard]; rfl
    | @refused artifact hs hv =>
      have hrefused : s.accepted? (.finish a.generation) = none := by
        simp [accepted?, ha, hs, hv]
      exact still rfl rfl hrefused (by simp [hs])
    | notify hs =>
      refine .notify ?_ ⟨?_, ?_, silent (by simp [hs])⟩
      · have hmap : (s.board.retrievals.map (·.notify))[i]? = some r.notify := by
          rw [Array.getElem?_map]
          exact congrArg (Option.map Retrieval.notify) hr
        rw [call?, hboard]
        exact hmap
      · rw [now, hboard]; rfl
      · rw [slot, hboard]; rfl
    | stampPanic hs | sendPanic hs | stampEnd hs | sendEnd hs | leave hs =>
      exact still rfl rfl (silent (by simp [hs])) (by simp [hs])

/-- What an action can mean to a retrieval is listed by `CallStep`. -/
theorem Step.callStep (h : Step s action t sent) {r : Retrieval α} (hr : s.call? i = some r) :
    CallStep i s r action t := by
  -- a step of another retrieval
  have others {j : Nat} {r' : Retrieval α} {action : Action α} {u : Service α}
      (hput : u.call? i = if i = j then some r' else s.call? i) (hj : i ≠ j)
      (hstill : Still s action u) (hattempts : u.attempts = s.attempts) :
      CallStep i s r action u := by
    refine .still ?_ hstill fun hp => ?_
    · rw [hput, if_neg hj, hr]
    · obtain ⟨g, a, succeeded, ha, hstage⟩ := hp
      exact ⟨g, a, succeeded, by rw [← ha, Service.attempt?, hattempts]; rfl, hstage⟩
  have asked {j : Nat} {board : Board α} {event : Option Event} {u : Service α}
      (hask : s.board.ask? j = some (board, event)) (hu : u.board = board)
      (hattempts : u.attempts = s.attempts) : CallStep i s r (.ask j) u := by
    obtain ⟨r', move, hr', hmove, hnow, -, hput⟩ := Board.of_ask? hask
    have hcall : u.call? i = if i = j then some move.retrieval else s.call? i := by
      rw [call?, hu]
      exact hput i
    have hstill : Still s (.ask j) u :=
      ⟨by rw [now, hu]; exact hnow, by rw [Service.slot, hu, Board.slot_ask? hask]; rfl, rfl⟩
    by_cases hj : i = j
    · subst hj
      obtain rfl : r' = r := Option.some.inj (hr'.symm.trans hr)
      exact .move rfl hmove (hcall.trans (if_pos rfl)) hstill
    · exact others hcall hj hstill hattempts
  cases h with
  | tick => exact .tick rfl rfl
  | retrieve =>
    refine .still ?_ ⟨rfl, rfl, rfl⟩ id
    obtain ⟨hlt, -⟩ := Array.getElem?_eq_some_iff.1 hr
    rw [← hr]
    exact Array.getElem?_push.trans (if_neg (Nat.ne_of_lt hlt))
  | ask hask => exact asked hask rfl rfl
  | report hask => exact asked hask rfl rfl
  | @wake j board hwake =>
    obtain ⟨r', hr', hcan, rfl⟩ := Board.of_wake? hwake
    have hput := Board.retrievals_put hr' { r' with stage := .arming } i
    by_cases hj : i = j
    · subst hj
      obtain rfl : r' = r := Option.some.inj (hr'.symm.trans hr)
      exact .wake rfl hcan (hput.trans (if_pos rfl)) ⟨rfl, rfl, rfl⟩
    · exact others hput hj ⟨rfl, rfl, rfl⟩ rfl
  | @abandon j board habandon =>
    obtain ⟨r', hr', rfl⟩ := Board.of_abandon? habandon
    have hput := Board.retrievals_put hr' { r' with stage := .abandoned } i
    by_cases hj : i = j
    · subst hj
      obtain rfl : r' = r := Option.some.inj (hr'.symm.trans hr)
      exact .abandon rfl (hput.trans (if_pos rfl)) ⟨rfl, rfl, rfl⟩
    · exact others hput hj ⟨rfl, rfl, rfl⟩ rfl
  | run hrun h =>
    obtain ⟨hretrievals, -, hstill⟩ := h.board
    exact .still (by rw [← hr]; exact congrArg (·[i]?) hretrievals) hstill h.publishing
  | attempt ha h => exact h.callStep ha hr
  | _ => exact .still hr ⟨rfl, rfl, rfl⟩ id

/-- The polling interval of the retrievals does not change. -/
theorem Step.poll (h : Step s action t sent) : t.board.poll = s.board.poll := by
  cases h with
  | ask hask | report hask =>
    obtain ⟨-, -, -, -, -, hpoll, -⟩ := Board.of_ask? hask
    exact hpoll
  | wake hwake =>
    obtain ⟨r, -, -, rfl⟩ := Board.of_wake? hwake
    rfl
  | abandon habandon =>
    obtain ⟨r, -, rfl⟩ := Board.of_abandon? habandon
    rfl
  | run _ h => exact h.board.2.1
  | attempt _ h =>
    cases h with
    | move _ => rw [board_afterMove]; split <;> rfl
    | _ => rfl
  | _ => rfl

end Service

end CompileWatch
