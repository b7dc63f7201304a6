import CompileWatch.Proofs.Newest
import CompileWatch.Proofs.SlotOrder

/-!
# The chronicle of an attempt

What is to be told of one attempt over a whole history: with which text its run handed it to the
workers, what its compiler answered, and when the slot took its artifact. Since no number is used
twice, each of these happens at most once, and in this order; and whatever the slot holds, the
chronicle of the attempt whose number it bears is complete and tells how it came about.
-/
namespace CompileWatch

/-- A turning point in the life of an attempt. -/
inductive Attempt.Milestone (α : Type) where
  /-- The run hands it to the workers, with a snapshot of the source text. -/
  | launched (run : Nat) (text : String)
  /-- Its compiler comes back. -/
  | answered (outcome : Outcome α)
  /-- The slot takes its artifact. Is its token cancelled then, and has a newer attempt been
  started? -/
  | stored (artifact : Artifact α) (cancelled overtaken : Bool)

namespace Attempt

variable {α : Type}

/-- The artifact that an attempt in this stage is going to offer. -/
def Stage.promise? (source : String) (g : Generation) : Stage α → Option (Artifact α)
  | .panicking text | .sendingPanic text _ =>
    some (.failed source g [.error ("compiler panicked: " ++ text)])
  | .offering artifact => some artifact
  | _ => none

/-- An attempt whose offer is refused does not end as published. -/
theorem Conclusion.ofOffer_ne_published {outcome : PublishOutcome} (h : outcome ≠ .published)
    (offered succeeded : Bool) : ofOffer offered outcome ≠ .published succeeded := by
  intro heq
  cases outcome with
  | published => exact h rfl
  | cancelled => cases heq
  | superseded => cases heq

/-- An attempt whose end is settled offers nothing any more. -/
theorem Stage.promise?_of_conclusion? {stage : Stage α} {how : Conclusion} (source : String)
    (g : Generation) (h : stage.conclusion? = some how) : stage.promise? source g = none := by
  cases stage <;> first | rfl | cases h

/-- The chronicle of the attempt `g`, made by a run for a text, that has come to a stage. -/
inductive Course (run : Nat) (source : String) (g : Generation) :
    Stage α → List (Milestone α) → Prop
  | waiting {stage : Stage α} : stage = .queued ∨ stage = .compiling ∨ stage = .finished none →
      Course run source g stage [.launched run source]
  | offering {stage : Stage α} {outcome : Outcome α} {artifact : Artifact α} :
      stage.promise? source g = some artifact → artifactOf? source g outcome = some artifact →
      Course run source g stage [.launched run source, .answered outcome]
  | refused {stage : Stage α} {outcome : Outcome α} {how : Conclusion} :
      stage.conclusion? = some how → (∀ succeeded, how ≠ .published succeeded) →
      Course run source g stage [.launched run source, .answered outcome]
  | stored {stage : Stage α} {outcome : Outcome α} {artifact : Artifact α} :
      stage.conclusion? = some (.published artifact.succeeded) →
      artifactOf? source g outcome = some artifact →
      Course run source g stage
        [.launched run source, .answered outcome, .stored artifact false false]

variable {run : Nat} {source : String} {g : Generation} {stage stage' : Stage α}
  {notes : List (Milestone α)}

theorem Course.length_le (h : Course run source g stage notes) : notes.length ≤ 3 := by
  cases h <;> simp

theorem Course.of_compiling (h : Course run source g (.compiling : Stage α) notes) :
    notes = [.launched run source] := by
  cases h with
  | waiting _ => rfl
  | offering hp _ => cases hp
  | refused hc _ => cases hc
  | stored hc _ => cases hc

/-- What an attempt is about to offer is what its compiler's answer makes. -/
theorem Course.of_promise? {artifact : Artifact α} (h : Course run source g stage notes)
    (hp : stage.promise? source g = some artifact) :
    ∃ outcome, notes = [.launched run source, .answered outcome] ∧
      artifactOf? source g outcome = some artifact := by
  cases h with
  | waiting hs => rcases hs with rfl | rfl | rfl <;> cases hp
  | offering hp' ho =>
    rw [hp] at hp'
    cases hp'
    exact ⟨_, rfl, ho⟩
  | refused hc _ =>
    rw [Stage.promise?_of_conclusion? source g hc] at hp
    cases hp
  | stored hc _ =>
    rw [Stage.promise?_of_conclusion? source g hc] at hp
    cases hp

/-- Once it is settled how an attempt ends, its chronicle is written. -/
theorem Course.conclusion {how : Conclusion} (h : Course run source g stage notes)
    (hs : stage.conclusion? = some how) (hs' : stage'.conclusion? = some how) :
    Course run source g stage' notes := by
  have heq : stage'.conclusion? = stage.conclusion? := hs'.trans hs.symm
  cases h with
  | waiting hw => rcases hw with rfl | rfl | rfl <;> cases hs
  | offering hp _ =>
    rw [Stage.promise?_of_conclusion? source g hs] at hp
    cases hp
  | refused hc hr => exact .refused (heq.trans hc) hr
  | stored hc ho => exact .stored (heq.trans hc) ho

/-- Where the answer of the compiler leads to. -/
theorem Course.of_answer (a : Attempt α) (outcome : Outcome α) :
    Course a.run a.source a.generation (a.stageAfter outcome)
      [.launched a.run a.source, .answered outcome] := by
  cases outcome with
  | value v => exact .offering rfl rfl
  | refused why =>
    cases why with
    | diagnostics ds => exact .offering rfl rfl
    | canceled => exact .refused rfl nofun
  | panicked payload => exact .offering rfl rfl

end Attempt

namespace Service

variable {α β : Type} {s t : Service α} {action : Action α} {sent : List Stamped}
  {g : Generation} {notes : List (Attempt.Milestone α)}

/-! ## The milestones of one attempt -/

/-- Has an attempt newer than `g` been started, or the floor been raised for one? -/
def isOvertaken (g : Generation) (s : Service α) : Bool :=
  g < s.slot.floor || s.attempts.any (g < ·.generation)

/-- What happens to the attempt `g` in an action, if it is a turning point. -/
def milestone? (g : Generation) (s : Service α) : Action α → Option (Attempt.Milestone α)
  | .proceed id => (s.run? id).bind fun r =>
    match r.stage with
    | .launching text k => if k = g then some (.launched id text) else none
    | _ => none
  | .compiled k outcome => if k = g then some (.answered outcome) else none
  | .finish k =>
    if k = g then
      (s.attempt? g).bind fun a =>
        (s.accepted? (.finish g)).map (.stored · a.cancelled (s.isOvertaken g))
    else none
  | _ => none

/-- The chronicle of the attempt `g` in a history. -/
def chronicle (s : Service α) (g : Generation) (actions : List (Action α)) :
    List (Attempt.Milestone α) :=
  s.observe (milestone? g) actions

/-- The floor is above all attempts, so one that has the number of the floor is not overtaken. -/
theorem Numbered.isOvertaken_floor (h : Numbered s) : s.isOvertaken s.slot.floor = false := by
  simp only [isOvertaken, Bool.or_eq_false_iff, decide_eq_false_iff_not, Nat.lt_irrefl,
    not_false_eq_true, true_and, List.any_eq_false, decide_eq_true_eq, Nat.not_lt]
  intro a ha
  obtain ⟨b, hb⟩ := exists_attempt?_of_mem ha
  exact (h.attempt_le hb).2

/-- An attempt that is there is not launched again. -/
theorem Numbered.milestone?_eq_none (h : Numbered s) {a : Attempt α} (ha : s.attempt? g = some a)
    (hactor : actor? action ≠ some g) : s.milestone? g action = none := by
  cases action with
  | proceed id =>
    refine Option.eq_none_iff_forall_ne_some.2 fun note hnote => ?_
    obtain ⟨r, hr, hs⟩ := Option.bind_eq_some_iff.1 hnote
    split at hs
    · next text k hstage =>
      split at hs
      · next hk =>
        subst hk
        have hp : s.pledge? id = some ⟨text, k, true⟩ := by simp [pledge?, hr, Run.pledge?, hstage]
        have hunused : s.attempt? k = none := h.pledge_unused hp
        rw [ha] at hunused
        cases hunused
      · cases hs
    · cases hs
  | compiled k outcome => exact if_neg fun hk => hactor (congrArg some hk)
  | finish k => exact if_neg fun hk => hactor (congrArg some hk)
  | _ => rfl

/-- An attempt that is not there has no milestone until it is launched. -/
theorem Step.milestone?_of_absent (h : Step s action t sent) (hnone : s.attempt? g = none) :
    t.attempt? g = none ∧ s.milestone? g action = none ∨
      ∃ id text, s.milestone? g action = some (.launched id text) ∧
        t.attempt? g = some { generation := g, run := id, source := text } := by
  cases h with
  | @run r r' _ _ _ hr h =>
    cases hnote : s.milestone? g action with
    | none =>
      rcases h.attempt? g with hrel | ⟨text, hstage, -, -⟩
      · rw [hnone] at hrel
        exact .inl ⟨eq_none_of_rel hrel, rfl⟩
      · cases h <;> simp_all [milestone?]
    | some note =>
      rcases h.attempt? g with hrel | ⟨text, hstage, -, hnew⟩
      · -- then its run has handed it to the workers, and it is there
        rw [hnone] at hrel
        have habsent := eq_none_of_rel hrel
        have hthere := @RunStep.attempt?_ne_none α s t action sent r r' h
        cases h
        case launch text k hs =>
          have hk : k = g := by simpa [milestone?, hr, hs] using congrArg Option.isSome hnote
          subst hk
          exact absurd habsent (hthere hs)
        all_goals simp_all [milestone?]
      · refine .inr ⟨r.id, text, ?_, hnew⟩
        rw [← hnote]
        cases h <;> simp_all [milestone?]
  | @attempt a a' _ _ _ ha h =>
    have hg : a.generation ≠ g := by
      rintro rfl
      rw [hnone] at ha
      cases ha
    refine .inl ⟨?_, ?_⟩
    · rw [h.attempt? ha, if_neg (Ne.symm hg), hnone]
    · cases h <;> simp [milestone?, hg]
  | _ => exact .inl ⟨hnone, rfl⟩

/-- A step of an attempt of its own goes on with its chronicle. -/
theorem AttemptStep.course {a a' : Attempt α} (h : AttemptStep s a action a' t sent)
    (hs : Numbered s) (ha : s.attempt? a.generation = some a)
    (hcourse : Attempt.Course a.run a.source a.generation a.stage notes) :
    Attempt.Course a.run a.source a.generation a'.stage
      (notes ++ (s.milestone? a.generation action).toList) := by
  cases h with
  | take hstage =>
    rw [hstage] at hcourse
    cases hcourse with
    | waiting _ =>
      unfold taken
      split
      · exact .waiting (.inr (.inr rfl))
      · exact .waiting (.inr (.inl rfl))
    | offering hp _ => cases hp
    | refused hc _ => cases hc
    | stored hc _ => cases hc
  | cancelItself _ => simpa [milestone?] using hcourse
  | @answer outcome hstage =>
    rw [hstage] at hcourse
    rw [hcourse.of_compiling]
    simpa [milestone?, answered] using Attempt.Course.of_answer a outcome
  | @move move hmove =>
    have quiet (hacc : s.accepted? (.finish a.generation) = none) :
        s.milestone? a.generation (.finish a.generation) = none := by
      simp [milestone?, ha, hacc]
    cases Attempt.MoveStep.of_next? hmove with
    | stampPanic hstage | sendPanic hstage =>
      rw [quiet (by simp [accepted?, ha, hstage]), Option.toList_none, List.append_nil]
      obtain ⟨outcome, rfl, ho⟩ := hcourse.of_promise? (by rw [hstage]; rfl)
      exact .offering rfl ho
    | @accepted artifact hstage hv =>
      have hacc : s.accepted? (.finish a.generation) = some artifact :=
        accepted?_eq_some_iff.2 ⟨_, a, rfl, ha, hstage, hv⟩
      have hfloor : a.generation = s.slot.floor :=
        (hs.offered ha hstage).1.symm.trans (hs.of_accepted? hacc).2.1
      have hovertaken : s.isOvertaken a.generation = false := by
        rw [hfloor]
        exact hs.isOvertaken_floor
      have hcancelled : a.cancelled = false := (Slot.verdict_eq_published_iff.1 hv).1
      obtain ⟨outcome, rfl, ho⟩ := hcourse.of_promise? (by rw [hstage]; rfl)
      have hnote : s.milestone? a.generation (.finish a.generation) =
          some (.stored artifact false false) := by
        simp [milestone?, ha, hacc, hovertaken, hcancelled]
      rw [hnote]
      exact .stored rfl ho
    | @refused artifact hstage hv =>
      rw [quiet (by simp [accepted?, ha, hstage, hv]), Option.toList_none, List.append_nil]
      obtain ⟨outcome, rfl, -⟩ := hcourse.of_promise? (by rw [hstage]; rfl)
      exact .refused rfl (Attempt.Conclusion.ofOffer_ne_published hv artifact.succeeded)
    | notify hstage | stampEnd hstage | sendEnd hstage | leave hstage =>
      rw [quiet (by simp [accepted?, ha, hstage]), Option.toList_none, List.append_nil]
      exact hcourse.conclusion (by rw [hstage]; rfl) rfl

/-! ## The chronicle over a whole history -/

/-- Do the compilers answer as described? Each attempt may have met another compiler. -/
def AnswersAs (c : Generation → Compiler β α) (s : Service α) (action : Action α) : Prop :=
  ∀ g outcome a, action = .compiled g outcome → s.attempt? g = some a →
    (c g).Gives a.source outcome

/-- What the chronicle of the attempt `g` says of the service, when the compilers answer as
described. -/
structure Chronicled (c : Generation → Compiler β α) (g : Generation) (s : Service α)
    (notes : List (Attempt.Milestone α)) : Prop where
  /-- It goes as far as the attempt has come. -/
  course : s.attempt? g = none ∧ notes = [] ∨
    ∃ a, s.attempt? g = some a ∧ Attempt.Course a.run a.source g a.stage notes
  /-- The answer in it is one that the compiler gives for the text of the attempt. -/
  genuine {outcome : Outcome α} {a : Attempt α} : .answered outcome ∈ notes →
    s.attempt? g = some a → (c g).Gives a.source outcome
  /-- It is complete if the slot holds what the attempt has made. -/
  held {artifact : Artifact α} : s.slot.latest = some artifact → artifact.generation = g →
    ∃ a outcome, s.attempt? g = some a ∧ artifact.source = a.source ∧
      notes = [.launched a.run a.source, .answered outcome, .stored artifact false false] ∧
      Attempt.artifactOf? a.source g outcome = some artifact

variable {c : Generation → Compiler β α}

theorem Chronicled.length_le (h : Chronicled c g s notes) : notes.length ≤ 3 := by
  rcases h.course with ⟨-, rfl⟩ | ⟨a, -, hcourse⟩
  · exact Nat.zero_le 3
  · exact hcourse.length_le

theorem Chronicled.course_step (h : Chronicled c g s notes) (hs : Numbered s)
    (hstep : Step s action t sent) :
    t.attempt? g = none ∧ notes ++ (s.milestone? g action).toList = [] ∨
      ∃ a, t.attempt? g = some a ∧ Attempt.Course a.run a.source g a.stage
        (notes ++ (s.milestone? g action).toList) := by
  rcases h.course with ⟨hnone, rfl⟩ | ⟨a, ha, hcourse⟩
  · rcases hstep.milestone?_of_absent hnone with ⟨hnone', hnote⟩ | ⟨id, text, hnote, hnew⟩
    · rw [hnote]
      exact .inl ⟨hnone', rfl⟩
    · rw [hnote]
      exact .inr ⟨_, hnew, .waiting (.inl rfl)⟩
  · refine .inr ?_
    rcases hstep.own_or_touch ha with ⟨a', hown, ha'⟩ | ⟨a', ha', htouch, hactor⟩
    · have hg : a.generation = g := generation_of_attempt? ha
      subst hg
      obtain ⟨-, hrun, hsource⟩ := hown.change.identity
      refine ⟨a', ha', ?_⟩
      rw [hrun, hsource]
      exact hown.course hs ha hcourse
    · obtain ⟨-, hrun, hsource, hstage⟩ := htouch.kept
      refine ⟨a', ha', ?_⟩
      rw [hs.milestone?_eq_none ha hactor, hrun, hsource, hstage]
      simpa using hcourse

/-- An attempt does not disappear, and it is found changed in one of the listed ways. -/
theorem Step.exists_change (h : Step s action t sent) {a : Attempt α}
    (ha : s.attempt? g = some a) : ∃ a', t.attempt? g = some a' ∧ Change s a a' := by
  rcases h.attempt? g with hrel | ⟨-, -, -, -, -, -, hnone, -⟩
  · rw [ha] at hrel
    exact exists_of_some_rel hrel
  · rw [ha] at hnone
    cases hnone

/-- The compiler is asked about the text of the attempt. -/
theorem Chronicled.genuine_step (h : Chronicled c g s notes) (hstep : Step s action t sent)
    (hanswers : AnswersAs c s action) {outcome : Outcome α} {a : Attempt α}
    (hnote : .answered outcome ∈ notes ++ (s.milestone? g action).toList)
    (ha : t.attempt? g = some a) : (c g).Gives a.source outcome := by
  rcases h.course with ⟨hnone, rfl⟩ | ⟨b, hb, -⟩
  · rcases hstep.milestone?_of_absent hnone with ⟨-, hnew⟩ | ⟨id, text, hnew, -⟩
    · simp [hnew] at hnote
    · simp [hnew] at hnote
  · obtain ⟨b', hb', hchange⟩ := hstep.exists_change hb
    rw [ha] at hb'
    cases hb'
    rw [hchange.identity.2.2]
    rcases List.mem_append.1 hnote with hold | hnew
    · exact h.genuine hold hb
    · cases action with
      | compiled k outcome' =>
        simp only [milestone?, Option.mem_toList, Option.ite_none_right_eq_some, Option.some.injEq,
          Attempt.Milestone.answered.injEq] at hnew
        obtain ⟨rfl, rfl⟩ := hnew
        exact hanswers k outcome' b rfl hb
      | proceed id =>
        obtain ⟨r, -, hs⟩ := Option.bind_eq_some_iff.1 (Option.mem_toList.1 hnew)
        split at hs
        · split at hs <;> cases hs
        · cases hs
      | finish k =>
        rw [Option.mem_toList, milestone?] at hnew
        split at hnew
        · obtain ⟨b', -, hs⟩ := Option.bind_eq_some_iff.1 hnew
          obtain ⟨artifact, -, heq⟩ := Option.map_eq_some_iff.1 hs
          cases heq
        · cases hnew
      | _ => cases hnew

/-- The slot takes an artifact of the attempt only with the last note in its chronicle. -/
theorem Chronicled.held_step (h : Chronicled c g s notes) (hs : Numbered s)
    (hstep : Step s action t sent) {artifact : Artifact α}
    (hlatest : t.slot.latest = some artifact) (hg : artifact.generation = g) :
    ∃ a outcome, t.attempt? g = some a ∧ artifact.source = a.source ∧
      notes ++ (s.milestone? g action).toList =
        [.launched a.run a.source, .answered outcome, .stored artifact false false] ∧
      Attempt.artifactOf? a.source g outcome = some artifact := by
  have hcourse := h.course_step hs hstep
  rw [hstep.slot.1] at hlatest
  cases hacc : s.accepted? action with
  | some artifact' =>
    rw [hacc, Option.some_or] at hlatest
    cases hlatest
    obtain ⟨⟨a, rfl, ha, hstage, hcancelled⟩, hfloor, -⟩ := hs.of_accepted? hacc
    rw [hg] at ha hacc
    have hovertaken : s.isOvertaken g = false := by
      rw [← hg, hfloor]
      exact hs.isOvertaken_floor
    obtain ⟨a', ha', hchange⟩ := hstep.exists_change ha
    obtain ⟨-, hrun, hsource⟩ := hchange.identity
    rcases h.course with ⟨hnone, -⟩ | ⟨b, hb, hold⟩
    · rw [ha] at hnone
      cases hnone
    · rw [ha] at hb
      cases hb
      obtain ⟨outcome, rfl, ho⟩ := hold.of_promise? (by rw [hstage]; rfl)
      refine ⟨a', outcome, ha', ?_, ?_, ?_⟩
      · rw [hsource]
        exact (hs.offered ha hstage).2
      · simp [milestone?, ha, hg, hacc, hcancelled, hovertaken, hrun, hsource]
      · rw [hsource]
        exact ho
  | none =>
    rw [hacc, Option.none_or] at hlatest
    obtain ⟨a, outcome, ha, hsource, rfl, ho⟩ := h.held hlatest hg
    obtain ⟨a', ha', hchange⟩ := hstep.exists_change ha
    obtain ⟨-, hrun, hkept⟩ := hchange.identity
    -- the chronicle was complete before, so that nothing is added to it
    rcases hcourse with ⟨-, hnil⟩ | ⟨b, -, hcourse⟩
    · cases hnil
    · have hlength := hcourse.length_le
      have hnote : s.milestone? g action = none := by
        cases hnote : s.milestone? g action with
        | none => rfl
        | some note => simp [hnote] at hlength
      refine ⟨a', outcome, ha', hsource.trans hkept.symm, ?_, hkept ▸ ho⟩
      simp [hnote, hrun, hkept]

theorem Chronicled.step (h : Chronicled c g s notes) (hs : Numbered s)
    (hstep : Step s action t sent) (hanswers : AnswersAs c s action) :
    Chronicled c g t (notes ++ (s.milestone? g action).toList) where
  course := h.course_step hs hstep
  genuine := h.genuine_step hstep hanswers
  held := h.held_step hs hstep

theorem chronicled_ofConfig (c : Generation → Compiler β α) (g : Generation) (config : Config)
    (sink : MessageSink) (text : String) :
    Chronicled c g (ofConfig config sink text : Service α) [] where
  course := .inl ⟨rfl, rfl⟩
  genuine h := nomatch h
  held h := nomatch h

/-- Every history has a true chronicle of every attempt. -/
theorem chronicled_chronicle {config : Config} {sink : MessageSink} {text : String}
    {actions : List (Action α)} (g : Generation)
    (hsteps : (ofConfig config sink text : Service α).steps? actions = some (t, sent))
    (hanswers : (ofConfig config sink text : Service α).Along (AnswersAs c) actions) :
    Chronicled c g t ((ofConfig config sink text : Service α).chronicle g actions) := by
  refine hanswers.observe_induct (motive := Chronicled c g)
    (fun {u v a told seen} hu _ hP hstep h => ?_) hsteps (chronicled_ofConfig c g config sink text)
  have hnumbered : Numbered u := (numbered_ofConfig config sink text).reaches hu
  exact h.step hnumbered (Step.of_step? hstep) hP

end Service

end CompileWatch
