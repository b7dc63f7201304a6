import CompileWatch.Proofs.Moves

/-!
# What changes in a step

The view of a step for one thing at a time: a run, an attempt, the slot, the counter of
generations. A step of a run changes that run in one place of the lookup, and an attempt only ever
changes in the few ways listed by `Change`; what others can do to it is listed by `Touch`.
-/
namespace CompileWatch

/-! ## Steps of an attempt of its own -/

/-- The steps that an attempt takes of its own accord, one constructor for each case. -/
inductive Attempt.MoveStep {α : Type} (seq : Nat) (slot : Slot α) (a : Attempt α) :
    Attempt.Move α → Prop
  | stampPanic {text : String} : a.stage = .panicking text →
      MoveStep seq slot a
        { attempt := { a with stage := .sendingPanic text ⟨seq, a.panicEvent text⟩ }
          slot, stamps := true }
  | sendPanic {text : String} {event : Stamped} : a.stage = .sendingPanic text event →
      MoveStep seq slot a
        { attempt := { a with stage := .offering (a.panicArtifact text) }
          slot, sent := some event }
  | accepted {artifact : Artifact α} : a.stage = .offering artifact →
      slot.verdict artifact a.cancelled = .published →
      MoveStep seq slot a
        { attempt := { a with stage := .stored artifact.succeeded }
          slot := { slot with latest := some artifact } }
  | refused {artifact : Artifact α} : a.stage = .offering artifact →
      slot.verdict artifact a.cancelled ≠ .published →
      MoveStep seq slot a
        { attempt := { a with
            stage := .concluding (.ofOffer artifact.succeeded (slot.verdict artifact a.cancelled)) }
          slot := slot }
  | notify {succeeded : Bool} : a.stage = .stored succeeded →
      MoveStep seq slot a
        { attempt := { a with stage := .concluding (.published succeeded) }
          slot, notifies := true }
  | stampEnd {how : Attempt.Conclusion} : a.stage = .concluding how →
      MoveStep seq slot a
        { attempt := { a with stage := .sending how ⟨seq, a.lastEvent how⟩ }
          slot, stamps := true }
  | sendEnd {how : Attempt.Conclusion} {event : Stamped} : a.stage = .sending how event →
      MoveStep seq slot a
        { attempt := { a with stage := .leaving how }, slot, sent := some event }
  | leave {how : Attempt.Conclusion} : a.stage = .leaving how →
      MoveStep seq slot a { attempt := { a with stage := .finished (some how) }, slot }

theorem Attempt.MoveStep.of_next? {α : Type} {seq : Nat} {slot : Slot α} {a : Attempt α}
    {move : Attempt.Move α} (h : a.next? seq slot = some move) :
    MoveStep seq slot a move := by
  unfold Attempt.next? at h
  split at h
  case h_1 text hs => cases h; exact .stampPanic hs
  case h_2 text event hs => cases h; exact .sendPanic hs
  case h_3 artifact hs =>
    unfold Slot.publish at h
    cases hv : slot.verdict artifact a.cancelled with
    | published => simp only [hv] at h; cases h; exact .accepted hs hv
    | cancelled | superseded =>
      simp only [hv] at h
      cases h
      have hrefused : slot.verdict artifact a.cancelled ≠ .published := by simp [hv]
      rw [← hv]
      exact .refused hs hrefused
  case h_4 succeeded hs => cases h; exact .notify hs
  case h_5 how hs => cases h; exact .stampEnd hs
  case h_6 how event hs => cases h; exact .sendEnd hs
  case h_7 how hs => cases h; exact .leave hs
  all_goals cases h

/-- How an attempt ends, as soon as that is settled. -/
def Attempt.Stage.conclusion? {α : Type} : Attempt.Stage α → Option Attempt.Conclusion
  | .stored succeeded => some (.published succeeded)
  | .concluding how | .sending how _ | .leaving how => some how
  | .finished how => how
  | _ => none

namespace Service

variable {α : Type} {s t : Service α} {action : Action α} {sent : List Stamped}

/-! ## Runs -/

/-- A step of a run puts the changed run in the place of the old one. -/
theorem RunStep.run? {r r' : Run} (h : RunStep s r action r' t sent)
    (hr : s.run? r.id = some r) (k : Nat) :
    t.run? k = if k = r.id then some r' else s.run? k := by
  cases h
  case glance => by_cases hk : k = r.id <;> simp [hk, hr]
  case launch =>
    rw [run?_updateRun]
    · simp [hr]
    · exact fun _ h => h
  case forget | displace | callOffNone =>
    rw [run?_moveRun]
    by_cases hk : k = r.id <;> simp [hk, run?_updateRun, hr]
  case callOffLast =>
    rw [run?_moveRun]
    by_cases hk : k = r.id <;> simp [hk, run?_updateRun, hr]
  case number text _ =>
    rw [run?_moveRun]
    by_cases hk : k = r.id
    · simp only [hk, ↓reduceIte]; exact congrArg _ hr
    · simp only [hk, ↓reduceIte]; rfl
  all_goals simp [run?_moveRun, hr]

/-- A step of an attempt leaves the runs alone. -/
theorem AttemptStep.run? {a a' : Attempt α} (h : AttemptStep s a action a' t sent) (k : Nat) :
    t.run? k = s.run? k := by
  cases h
  case move => rw [afterMove_eq]; rfl
  all_goals rfl

/-- A run that is told to stop is cancelled; the others stay as they are. -/
theorem run?_tell_cases (s : Service α) (id k : Nat) :
    (s.updateRun id ({ · with cancelled := true })).run? k = s.run? k ∨
      ∃ r, s.run? k = some r ∧
        (s.updateRun id ({ · with cancelled := true })).run? k =
          some { r with cancelled := true } := by
  rw [run?_tell]
  by_cases hk : k = id
  · subst hk
    cases hr : s.run? k with
    | none => exact .inl (by simp)
    | some r => exact .inr ⟨r, rfl, by simp⟩
  · exact .inl (by simp [hk])

/-- In a step of the whole service a run stays as it is, is told to stop, or takes a step of its
own; a run that was not there before has just been started. -/
theorem Step.run? (h : Step s action t sent) (k : Nat) :
    t.run? k = s.run? k ∨
      (∃ r, s.run? k = some r ∧ t.run? k = some { r with cancelled := true }) ∨
      (∃ r r', r.id = k ∧ s.run? k = some r ∧ t.run? k = some r' ∧
        RunStep s r action r' t sent) ∨
      (k = s.runs.length + 1 ∧ s.run? k = none ∧
        t.run? k = some { id := k, stage := .waiting s.nextPoll }) := by
  cases h with
  | @run r r' _ _ _ hr h =>
    by_cases hk : k = r.id
    · subst hk
      exact .inr (.inr (.inl ⟨r, r', rfl, hr, by simp [h.run? hr], h⟩))
    · exact .inl (by simp [h.run? hr, hk])
  | attempt ha h => exact .inl (h.run? k)
  | start hrun =>
    have hnew := s.run?_append { id := s.runs.length + 1, stage := .waiting s.nextPoll } k
    cases hk : s.run? k with
    | some r => exact .inl (hnew.trans (by simp [hk]))
    | none =>
      by_cases hid : k = s.runs.length + 1
      · subst hid
        exact .inr (.inr (.inr ⟨rfl, rfl, hnew.trans (by simp [hk])⟩))
      · exact .inl (hnew.trans (by simp [hk, hid]))
  | @tellRun n id call hcall hs hrun =>
    rcases s.run?_tell_cases id k with hk | hk
    · exact .inl hk
    · exact .inr (.inl hk)
  | @drop id hh =>
    rcases s.run?_tell_cases id k with hk | hk
    · exact .inl hk
    · exact .inr (.inl hk)
  | _ => exact .inl rfl

/-! ## Attempts -/

/-- What others do to an attempt in one step: they cancel its token, call it off, or take note of
its end. -/
inductive Touch (a : Attempt α) : Attempt α → Prop
  | same : Touch a a
  | cancel : Touch a { a with cancelled := true }
  | callOff : Touch a { a with calledOff := true }
  | note : a.isFinished = true → Touch a { a with noted := true }

/-- The ways in which an attempt of the service `s` changes in one step, by itself or by others. -/
inductive Change (s : Service α) (a : Attempt α) : Attempt α → Prop
  | touch {a' : Attempt α} : Touch a a' → Change s a a'
  | take : a.stage = .queued → Change s a (taken s.now a)
  | answer {outcome : Outcome α} : a.stage = .compiling →
      Change s a (answered s.now outcome a)
  | move {move : Attempt.Move α} : a.MoveStep s.nextSeq s.slot move → Change s a move.attempt

/-- Others leave the number, the run, the text and the progress of an attempt alone. -/
theorem Touch.kept {a a' : Attempt α} (h : Touch a a') :
    a'.generation = a.generation ∧ a'.run = a.run ∧ a'.source = a.source ∧
      a'.stage = a.stage := by
  cases h <;> exact ⟨rfl, rfl, rfl, rfl⟩

/-- An attempt keeps its generation, its run and its text. -/
theorem Change.identity {a a' : Attempt α} (h : Change s a a') :
    a'.generation = a.generation ∧ a'.run = a.run ∧ a'.source = a.source := by
  cases h with
  | touch h => exact ⟨h.kept.1, h.kept.2.1, h.kept.2.2.1⟩
  | take _ => unfold taken; split <;> exact ⟨rfl, rfl, rfl⟩
  | answer _ => exact ⟨rfl, rfl, rfl⟩
  | move h => cases h <;> exact ⟨rfl, rfl, rfl⟩

/-- A finished attempt stays finished, with the same end. -/
theorem Change.finished {a a' : Attempt α} (h : Change s a a')
    {how : Option Attempt.Conclusion} (hs : a.stage = .finished how) :
    a'.stage = .finished how := by
  cases h with
  | touch h => exact h.kept.2.2.2.trans hs
  | take hq => simp [hs] at hq
  | answer hc => simp [hs] at hc
  | move h => cases h <;> simp_all

/-- The token of an attempt stays cancelled. -/
theorem Change.cancelled {a a' : Attempt α} (h : Change s a a') (hc : a.cancelled = true) :
    a'.cancelled = true := by
  cases h with
  | touch h =>
    cases h with
    | cancel => rfl
    | _ => exact hc
  | take _ => unfold taken; split <;> exact hc
  | answer _ => exact hc
  | move h => cases h <;> exact hc

/-- The end of an attempt, once settled, stays so. -/
theorem Change.conclusion {a a' : Attempt α} (h : Change s a a') {how : Attempt.Conclusion}
    (hs : a.stage.conclusion? = some how) : a'.stage.conclusion? = some how := by
  cases h with
  | touch h => rw [h.kept.2.2.2]; exact hs
  | take hq => simp [Attempt.Stage.conclusion?, hq] at hs
  | answer hc => simp [Attempt.Stage.conclusion?, hc] at hs
  | move h => cases h <;> simp_all [Attempt.Stage.conclusion?]

/-- An attempt comes to offer an artifact of its own number and text. -/
theorem Change.offering {a a' : Attempt α} (h : Change s a a') {artifact : Artifact α}
    (hs : a'.stage = .offering artifact) :
    a.stage = .offering artifact ∨
      artifact.generation = a.generation ∧ artifact.source = a.source := by
  cases h with
  | touch h => exact .inl (h.kept.2.2.2.symm.trans hs)
  | take _ =>
    unfold taken at hs
    split at hs <;> cases hs
  | @answer outcome _ =>
    refine .inr ?_
    cases outcome with
    | value v => cases hs; exact ⟨rfl, rfl⟩
    | refused why =>
      cases why with
      | diagnostics ds =>
        cases hs
        exact ⟨Artifact.generation_failed _ _ ds, Artifact.source_failed _ _ ds⟩
      | canceled => cases hs
    | panicked payload => cases hs
  | move h =>
    cases h with
    | sendPanic _ => cases hs; exact .inr ⟨rfl, rfl⟩
    | _ => cases hs

/-- A step of an attempt puts the changed attempt in the place of the old one. -/
theorem AttemptStep.attempt? {a a' : Attempt α} (h : AttemptStep s a action a' t sent)
    (ha : s.attempt? a.generation = some a) (k : Generation) :
    t.attempt? k = if k = a.generation then some a' else s.attempt? k := by
  cases h with
  | take hs =>
    rw [attempt?_updateAttempt, ha]
    · rfl
    · intro b hb
      unfold taken
      split <;> exact hb
  | cancelItself hs => rw [attempt?_cancelAttempt, ha]; rfl
  | answer hs =>
    rw [attempt?_updateAttempt, ha]
    · rfl
    · exact fun b hb => hb
  | @move move hmove =>
    have hkeep : move.attempt.generation = a.generation :=
      (Change.move (s := s) (.of_next? hmove)).identity.1
    have hput : (s.afterMove a move).attempt? k =
        (s.updateAttempt a.generation fun _ => move.attempt).attempt? k := by
      rw [afterMove_eq]; rfl
    rw [hput, attempt?_updateAttempt, ha]
    · rfl
    · exact fun _ _ => hkeep

theorem AttemptStep.change {a a' : Attempt α} (h : AttemptStep s a action a' t sent) :
    Change s a a' := by
  cases h with
  | take hs => exact .take hs
  | cancelItself _ => exact .touch .cancel
  | answer hs => exact .answer hs
  | move hmove => exact .move (.of_next? hmove)

/-- What is found after a step was found before it, and changed. -/
theorem exists_of_rel_some {R : Attempt α → Attempt α → Prop} {found : Option (Attempt α)}
    {a' : Attempt α} (h : Option.Rel R found (some a')) : ∃ a, found = some a ∧ R a a' := by
  cases h with
  | some h => exact ⟨_, rfl, h⟩

/-- What is found before a step is found after it, and changed. -/
theorem exists_of_some_rel {R : Attempt α → Attempt α → Prop} {found : Option (Attempt α)}
    {a : Attempt α} (h : Option.Rel R (some a) found) : ∃ a', found = some a' ∧ R a a' := by
  cases h with
  | some h => exact ⟨_, rfl, h⟩

theorem eq_none_of_rel {R : Attempt α → Attempt α → Prop} {found : Option (Attempt α)}
    (h : Option.Rel R none found) : found = none := by
  cases h; rfl

theorem rel_mono {R S : Attempt α → Attempt α → Prop} (hRS : ∀ {a a'}, R a a' → S a a')
    {found found' : Option (Attempt α)} (h : Option.Rel R found found') :
    Option.Rel S found found' := by
  cases h with
  | none => exact .none
  | some h => exact .some (hRS h)

theorem touch_refl (found : Option (Attempt α)) : Option.Rel Touch found found := by
  cases found with
  | none => exact .none
  | some a => exact .some .same

theorem change_refl (s : Service α) (found : Option (Attempt α)) :
    Option.Rel (Change s) found found :=
  rel_mono .touch (touch_refl found)

/-- An update of one attempt touches it, if the update does. -/
theorem touch_update {g k : Generation} {f : Attempt α → Attempt α} (hf : ∀ a, Touch a (f a)) :
    Option.Rel Touch (s.attempt? g)
      (if g = k then (s.attempt? k).map f else s.attempt? g) := by
  split
  · next h =>
    subst h
    cases s.attempt? g with
    | none => exact .none
    | some a => exact .some (hf a)
  · exact touch_refl _

theorem touch_cancelAttempt (s : Service α) (g k : Generation) :
    Option.Rel Touch (s.attempt? g) ((s.cancelAttempt k).attempt? g) := by
  rw [attempt?_cancelAttempt]
  exact touch_update fun _ => .cancel

theorem touch_callOff (s : Service α) (g k : Generation) :
    Option.Rel Touch (s.attempt? g) ((s.callOff k).attempt? g) := by
  rw [attempt?_callOff]
  exact touch_update fun _ => .callOff

theorem touch_callOffRun (s : Service α) (g : Generation) (id : Nat) :
    Option.Rel Touch (s.attempt? g) ((s.callOffRun id).attempt? g) := by
  rw [attempt?_callOffRun]
  cases s.attempt? g with
  | none => exact .none
  | some a =>
    refine .some ?_
    dsimp only
    split
    · exact .callOff
    · exact .same

theorem touch_looked (s : Service α) (id n : Nat) (g : Generation) :
    Option.Rel Touch (s.attempt? g) ((s.looked id n).attempt? g) := by
  rcases s.attempt?_looked id n g with h | ⟨a, ha, hf, h⟩
  · rw [h]; exact touch_refl _
  · rw [ha, h]; exact .some (.note hf)

/-- What a step of a run does to the attempts: it touches them one by one, or adds one. -/
theorem RunStep.attempt? {r r' : Run} (h : RunStep s r action r' t sent) (g : Generation) :
    Option.Rel Touch (s.attempt? g) (t.attempt? g) ∨
      ∃ text, r.stage = .launching text g ∧ s.attempt? g = none ∧
        t.attempt? g = some { generation := g, run := r.id, source := text } := by
  cases h
  case rest | drained | graceEnds | glance => exact .inl (touch_looked s _ _ g)
  case die => exact .inl (touch_callOffRun s g _)
  case cancel | cancelLast => exact .inl (touch_cancelAttempt s g _)
  case callOff | callOffLast => exact .inl (touch_callOff s g _)
  case launch text k hs =>
    -- a look finds the new attempt at its very beginning, so there is no end of it to note
    have hadd := s.attempt?_launched r.id text k g
    rw [attempt?_updateRun]
    rcases (s.launched r.id text k).attempt?_looked r.id (s.attempts.length + 1) g with
      h | ⟨a, ha, hf, h⟩
    · rw [h, hadd]
      cases hg : s.attempt? g with
      | some a => exact .inl (.some .same)
      | none =>
        by_cases hk : g = k
        · subst hk
          exact .inr ⟨text, hs, rfl, by simp⟩
        · exact .inl (by simp [hk])
    · rw [h]
      rw [hadd] at ha
      cases hg : s.attempt? g with
      | some b =>
        simp only [hg, Option.some_or, Option.some.injEq] at ha
        subst ha
        exact .inl (.some (.note hf))
      | none =>
        simp only [hg, Option.none_or, Option.ite_none_right_eq_some, Option.some.injEq] at ha
        obtain ⟨-, rfl⟩ := ha
        cases hf
  all_goals exact .inl (touch_refl _)

/-- An attempt is there once its run has handed it to the workers. -/
theorem RunStep.attempt?_ne_none {r r' : Run} (h : RunStep s r action r' t sent) {text : String}
    {g : Generation} (hs : r.stage = .launching text g) : t.attempt? g ≠ none := by
  cases h
  case launch text' k hs' =>
    rw [hs] at hs'
    cases hs'
    have hadd : (s.launched r.id text g).attempt? g ≠ none := by
      rw [attempt?_launched]
      simp
    rw [attempt?_updateRun]
    rcases (s.launched r.id text g).attempt?_looked r.id (s.attempts.length + 1) g with
      h | ⟨a, -, -, h⟩
    · rw [h]; exact hadd
    · rw [h]; exact nofun
  all_goals simp_all

/-- The attempt whose own step an action is. -/
def actor? : Action α → Option Generation
  | .take g | .cancelItself g | .compiled g _ | .finish g => some g
  | _ => none

theorem AttemptStep.actor {a a' : Attempt α} (h : AttemptStep s a action a' t sent) :
    actor? action = some a.generation := by
  cases h <;> rfl

theorem RunStep.actor {r r' : Run} (h : RunStep s r action r' t sent) : actor? action = none := by
  cases h <;> rfl

/-- In a step of the whole service an attempt takes a step of its own, or others touch it. -/
theorem Step.own_or_touch (h : Step s action t sent) {g : Generation} {a : Attempt α}
    (ha : s.attempt? g = some a) :
    (∃ a', AttemptStep s a action a' t sent ∧ t.attempt? g = some a') ∨
      (∃ a', t.attempt? g = some a' ∧ Touch a a' ∧ actor? action ≠ some g) := by
  cases h with
  | @run r r' _ _ _ hr h =>
    rcases h.attempt? g with hrel | ⟨-, -, hnone, -⟩
    · rw [ha] at hrel
      obtain ⟨a', ha', htouch⟩ := exists_of_some_rel hrel
      exact .inr ⟨a', ha', htouch, by simp [h.actor]⟩
    · rw [ha] at hnone
      cases hnone
  | @attempt b b' _ _ _ hb h =>
    have hput := h.attempt? hb g
    by_cases hg : g = b.generation
    · subst hg
      rw [hb] at ha
      cases ha
      exact .inl ⟨b', h, by simpa using hput⟩
    · refine .inr ⟨a, by simpa [hg, ha] using hput, .same, ?_⟩
      rw [h.actor]
      exact fun heq => hg (Option.some.inj heq).symm
  | _ => exact .inr ⟨a, ha, .same, nofun⟩

/-- In a step of the whole service an attempt changes in one of the listed ways; one that was not
there before has just been handed to the workers by its run. -/
theorem Step.attempt? (h : Step s action t sent) (g : Generation) :
    Option.Rel (Change s) (s.attempt? g) (t.attempt? g) ∨
      ∃ r r' text, RunStep s r action r' t sent ∧ t.run? r.id = some r' ∧
        r.stage = .launching text g ∧ s.attempt? g = none ∧
        t.attempt? g = some { generation := g, run := r.id, source := text } := by
  cases h with
  | @run r r' _ _ _ hr h =>
    rcases h.attempt? g with hrel | ⟨text, hs, hnone, hsome⟩
    · exact .inl (rel_mono .touch hrel)
    · exact .inr ⟨r, r', text, h, by simp [h.run? hr], hs, hnone, hsome⟩
  | @attempt a a' _ _ _ ha h =>
    refine .inl ?_
    rw [h.attempt? ha g]
    split
    · next hg => rw [hg, ha]; exact .some h.change
    · exact change_refl s _
  | _ => exact .inl (change_refl s _)

/-! ## The slot -/

/-- The artifact that the slot takes in an action, if the action is an offer that it takes. -/
def accepted? (s : Service α) : Action α → Option (Artifact α)
  | .finish g =>
    (s.attempt? g).bind fun a =>
      match a.stage with
      | .offering artifact =>
        if s.slot.verdict artifact a.cancelled = .published then some artifact else none
      | _ => none
  | _ => none

/-- The text and the generation of the attempt for which an action raises the floor. -/
def raised? (s : Service α) : Action α → Option (String × Generation)
  | .proceed id =>
    (s.run? id).bind fun r =>
      match r.stage with
      | .raising text g => some (text, g)
      | _ => none
  | _ => none

theorem accepted?_eq_some_iff {artifact : Artifact α} :
    s.accepted? action = some artifact ↔
      ∃ g a, action = .finish g ∧ s.attempt? g = some a ∧ a.stage = .offering artifact ∧
        s.slot.verdict artifact a.cancelled = .published := by
  constructor
  · intro h
    cases action with
    | finish g =>
      obtain ⟨a, ha, hs⟩ := Option.bind_eq_some_iff.1 h
      split at hs
      · next artifact' hstage =>
        split at hs
        · next hv => cases hs; exact ⟨g, a, rfl, ha, hstage, hv⟩
        · cases hs
      · cases hs
    | _ => cases h
  · rintro ⟨g, a, rfl, ha, hs, hv⟩
    simp [accepted?, ha, hs, hv]

theorem raised?_eq_some_iff {text : String} {g : Generation} :
    s.raised? action = some (text, g) ↔
      ∃ id r, action = .proceed id ∧ s.run? id = some r ∧ r.stage = .raising text g := by
  constructor
  · intro h
    cases action with
    | proceed id =>
      obtain ⟨r, hr, hs⟩ := Option.bind_eq_some_iff.1 h
      split at hs
      · next hstage => cases hs; exact ⟨id, r, rfl, hr, hstage⟩
      · cases hs
    | _ => cases h
  · rintro ⟨id, r, rfl, hr, hs⟩
    simp [raised?, hr, hs]

end Service

namespace Board

variable {α : Type} {b c : Board α}

/-- Retrievals only read the slot. -/
theorem slot_ask? {i : Nat} {event : Option Event} (h : b.ask? i = some (c, event)) :
    c.slot = b.slot := by
  unfold ask? at h
  split at h
  · cases h
  · obtain ⟨move, -, heq⟩ := Option.map_eq_some_iff.1 h
    cases heq
    cases move.told <;> rfl

theorem slot_wake? {i : Nat} (h : b.wake? i = some c) : c.slot = b.slot := by
  unfold wake? at h
  split at h
  · cases h
  · split at h
    · cases h; rfl
    · cases h

theorem slot_abandon? {i : Nat} (h : b.abandon? i = some c) : c.slot = b.slot := by
  unfold abandon? at h
  split at h
  · cases h
  · split at h
    · cases h; rfl
    · cases h

end Board

namespace Service

variable {α : Type} {s t : Service α} {action : Action α} {sent : List Stamped}

theorem slot_afterMove (s : Service α) (a : Attempt α) (move : Attempt.Move α) :
    (s.afterMove a move).slot = move.slot := by
  unfold afterMove
  dsimp only
  split <;> split <;> rfl

/-- The slot changes only where an offer is taken or the floor is raised. -/
theorem Step.slot (h : Step s action t sent) :
    t.slot.latest = (s.accepted? action).or s.slot.latest ∧
      t.slot.floor = max s.slot.floor (((s.raised? action).map Prod.snd).getD 0) := by
  have quiet (ha : s.accepted? action = none) (hr : s.raised? action = none)
      (ht : t.slot = s.slot) : t.slot.latest = (s.accepted? action).or s.slot.latest ∧
      t.slot.floor = max s.slot.floor (((s.raised? action).map Prod.snd).getD 0) := by
    simp [ha, hr, ht]
  cases h with
  | ask h => exact quiet rfl rfl (Board.slot_ask? h)
  | report h => exact quiet rfl rfl (Board.slot_ask? h)
  | wake h => exact quiet rfl rfl (Board.slot_wake? h)
  | abandon h => exact quiet rfl rfl (Board.slot_abandon? h)
  | @run r r' _ _ _ hr h =>
    cases h
    case raise text g hs =>
      have hraised : s.raised? (.proceed r.id) = some (text, g) :=
        raised?_eq_some_iff.2 ⟨_, _, rfl, hr, hs⟩
      rw [hraised]
      exact ⟨rfl, rfl⟩
    all_goals
      refine quiet rfl ?_ rfl
      simp [raised?, *]
  | @attempt a a' _ _ _ ha h =>
    cases h with
    | move hmove =>
      have hmove := Attempt.MoveStep.of_next? hmove
      rw [slot_afterMove]
      cases hmove with
      | @accepted artifact hs hv =>
        have htaken : s.accepted? (.finish a.generation) = some artifact :=
          accepted?_eq_some_iff.2 ⟨_, _, rfl, ha, hs, hv⟩
        rw [htaken]
        exact ⟨rfl, by simp [raised?]⟩
      | _ => simp [accepted?, raised?, *]
    | _ => exact quiet rfl rfl rfl
  | _ => exact quiet rfl rfl rfl

end Service

end CompileWatch
