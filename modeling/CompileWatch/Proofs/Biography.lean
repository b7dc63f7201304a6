import CompileWatch.Proofs.Batches
import CompileWatch.Proofs.Overlaps

/-!
# What is said of an attempt

The run announces the start of an attempt; everything else that is said of the attempt it says
itself, after a worker has taken it. `Lived` lists, stage by stage, what an attempt has done and
said so far: a panic of its compiler is told at once, and how it ends is told when that is settled.
`Told` puts the announcement before that. Together they describe all that is ever sent about one
attempt, in every history.
-/
namespace CompileWatch

/-! ## The events about an attempt -/

/-- Does an event tell of the attempt `g`: of its start, of a panic of its compiler, or of its
end? -/
def Event.isOfAttempt (g : Generation) (e : Event) : Bool :=
  (e.kind = .attemptStarting || e.kind = .compilerPanicked || e.kind = .attemptPublished ||
    e.kind = .attemptDiscarded) && e.generation = some g

theorem Event.isOfAttempt_of_isOfCall {g : Generation} {e : Event} (h : e.isOfCall = true) :
    e.isOfAttempt g = false := by
  unfold Event.isOfCall at h
  unfold Event.isOfAttempt
  cases hkind : e.kind <;> simp_all

namespace Service

/-- What is said of the attempt `g`, in the order in which it is sent. -/
def biography (g : Generation) (sent : List Stamped) : List Event :=
  (sent.map (·.event)).filter (·.isOfAttempt g)

/-- The event with which the run `id` announces the attempt `g`. -/
def startEvent (id : Nat) (g : Generation) (text : String) : Event :=
  { runEvent .attemptStarting id with generation := some g, source := some text }

theorem biography_append (g : Generation) (first second : List Stamped) :
    biography g (first ++ second) = biography g first ++ biography g second := by
  simp [biography]

theorem biography_eq_nil {g : Generation} {sent : List Stamped}
    (h : ∀ e ∈ sent, e.event.isOfAttempt g = false) : biography g sent = [] := by
  simpa [biography] using h

theorem biography_singleton {g : Generation} {e : Stamped} (h : e.event.isOfAttempt g = true) :
    biography g [e] = [e.event] := by
  simp [biography, h]

theorem isOfAttempt_startEvent (id : Nat) (g : Generation) (text : String) :
    (startEvent id g text).isOfAttempt g = true := by
  simp [startEvent, Event.isOfAttempt, runEvent]

/-- The announcement of an attempt bears the run that makes it. -/
theorem run_of_startEvent {i j : Nat} {g k : Generation} {text source : String}
    (h : startEvent i g text = startEvent j k source) : i = j :=
  Option.some.inj (congrArg Event.run h)

end Service

namespace Attempt

variable {α : Type} {a a' : Attempt α}

theorem isOfAttempt_panicEvent (a : Attempt α) (text : String) (g : Generation) :
    (a.panicEvent text).isOfAttempt g = decide (a.generation = g) := by
  simp [panicEvent, event, Event.isOfAttempt]

theorem isOfAttempt_lastEvent (a : Attempt α) (how : Conclusion) (g : Generation) :
    (a.lastEvent how).isOfAttempt g = decide (a.generation = g) := by
  cases how <;> simp [lastEvent, event, Event.withElapsed, Event.isOfAttempt, Conclusion.kind]

/-! ## What an attempt does and says -/

/-- What an attempt does on which its events depend. -/
inductive Act (α : Type) where
  /-- A worker takes it, and it begins. -/
  | begun
  /-- Its compiler comes back. -/
  | answered (outcome : Outcome α)
  /-- It offers its artifact to the slot. Is its token cancelled, and what does the slot say? -/
  | offered (cancelled : Bool) (verdict : PublishOutcome)
  deriving DecidableEq

/-- What an attempt says of the answer of its compiler. -/
def panics (a : Attempt α) : Outcome α → List Event
  | .panicked payload => [a.panicEvent payload.text]
  | _ => []

/-- How an attempt ends after an answer of its compiler, and after its offer if it makes one. -/
inductive Settles : Outcome α → List (Act α) → Conclusion → Prop
  | gaveUp : Settles (.refused .canceled) [] .gaveUp
  | offered {outcome : Outcome α} {cancelled succeeded : Bool} {verdict : PublishOutcome} :
      outcome ≠ .refused .canceled → (verdict = .cancelled ↔ cancelled = true) →
      Settles outcome [.offered cancelled verdict] (.ofOffer succeeded verdict)

/-- How an attempt ends, as long as that is settled and not told. -/
def Stage.untold? : Stage α → Option Conclusion
  | .stored succeeded => some (.published succeeded)
  | .concluding how | .sending how _ => some how
  | _ => none

/-- How an attempt ends, as soon as that is told. -/
def Stage.told? : Stage α → Option Conclusion
  | .leaving how => some how
  | .finished how => how
  | _ => none

theorem isFinished_of_untold? (a : Attempt α) {how : Conclusion}
    (h : a.stage.untold? = some how) : a.isFinished = false := by
  unfold isFinished
  split
  · next hs =>
    rw [hs] at h
    cases h
  · rfl

/-- What an attempt has done and said, stage by stage. -/
inductive Lived (a : Attempt α) : List (Act α) → List Event → Prop
  | waiting : a.stage = .queued ∨ a.stage = .finished none → Lived a [] []
  | compiling : a.stage = .compiling → Lived a [.begun] []
  | panicking {payload : PanicPayload} :
      (a.stage = .panicking payload.text ∨ ∃ e, a.stage = .sendingPanic payload.text e) →
      Lived a [.begun, .answered (.panicked payload)] []
  | offering {outcome : Outcome α} {artifact : Artifact α} : a.stage = .offering artifact →
      outcome ≠ .refused .canceled → Lived a [.begun, .answered outcome] (a.panics outcome)
  | settled {outcome : Outcome α} {rest : List (Act α)} {how : Conclusion} :
      a.stage.untold? = some how → Settles outcome rest how →
      Lived a (.begun :: .answered outcome :: rest) (a.panics outcome)
  | told {outcome : Outcome α} {rest : List (Act α)} {how : Conclusion} :
      a.stage.told? = some how → Settles outcome rest how →
      Lived a (.begun :: .answered outcome :: rest) (a.panics outcome ++ [a.lastEvent how])

variable {acts : List (Act α)} {words : List Event}

/-- An attempt that has come as far, with the same words to say, has lived the same. -/
theorem Lived.congr (h : Lived a acts words) (hstage : a'.stage = a.stage)
    (hgeneration : a'.generation = a.generation) (hsource : a'.source = a.source)
    (hspent : a'.spent = a.spent) : Lived a' acts words := by
  have hpanics (outcome : Outcome α) : a'.panics outcome = a.panics outcome := by
    cases outcome <;> simp [panics, panicEvent, event, hgeneration, hsource]
  have hlast (how : Conclusion) : a'.lastEvent how = a.lastEvent how := by
    simp [lastEvent, event, hgeneration, hsource, hspent]
  cases h with
  | waiting hs => exact .waiting (hstage.symm ▸ hs)
  | compiling hs => exact .compiling (hstage.trans hs)
  | panicking hs => exact .panicking (hstage.symm ▸ hs)
  | offering hs ho =>
    rw [← hpanics]
    exact .offering (hstage.trans hs) ho
  | settled hs hsettles =>
    rw [← hpanics]
    exact .settled (hstage.symm ▸ hs) hsettles
  | told hs hsettles =>
    rw [← hpanics, ← hlast]
    exact .told (hstage.symm ▸ hs) hsettles

theorem exists_of_mem_panics {outcome : Outcome α} {e : Event} (he : e ∈ a.panics outcome) :
    ∃ text, e = a.panicEvent text := by
  cases outcome with
  | panicked payload => exact ⟨payload.text, List.mem_singleton.1 he⟩
  | _ => cases he

/-- An attempt tells of the panic of its compiler, or how it ends. -/
theorem Lived.of_mem (h : Lived a acts words) {e : Event} (he : e ∈ words) :
    (∃ text, e = a.panicEvent text) ∨ ∃ outcome rest how, Settles outcome rest how ∧
      acts = .begun :: .answered outcome :: rest ∧ e = a.lastEvent how := by
  cases h with
  | waiting _ | compiling _ | panicking _ => cases he
  | offering _ _ | settled _ _ => exact .inl (exists_of_mem_panics he)
  | told _ hsettles =>
    rcases List.mem_append.1 he with he | he
    · exact .inl (exists_of_mem_panics he)
    · exact .inr ⟨_, _, _, hsettles, rfl, List.mem_singleton.1 he⟩

/-- What an attempt says of itself is not its start, and carries its text. -/
theorem Lived.word (h : Lived a acts words) {e : Event} (he : e ∈ words) :
    e.kind ≠ .attemptStarting ∧ e.source = some a.source := by
  rcases h.of_mem he with ⟨text, rfl⟩ | ⟨outcome, rest, how, -, -, rfl⟩
  · exact ⟨nofun, rfl⟩
  · exact ⟨by cases how <;> simp [lastEvent, event, Event.withElapsed, Conclusion.kind], rfl⟩

/-- An attempt that offered an artifact which was taken tells so, or has still to. -/
theorem Lived.of_published (h : Lived a acts words) {cancelled : Bool}
    (hmem : .offered cancelled .published ∈ acts) :
    (∃ e ∈ words, e.kind = .attemptPublished) ∨
      ∃ succeeded, a.stage.untold? = some (.published succeeded) := by
  cases h with
  | settled hs hsettles =>
    cases hsettles with
    | gaveUp => simp at hmem
    | @offered _ _ succeeded _ _ _ =>
      obtain ⟨-, rfl⟩ : cancelled = _ ∧ _ = _ := by simpa using hmem
      exact .inr ⟨succeeded, hs⟩
  | told hs hsettles =>
    cases hsettles with
    | gaveUp => simp at hmem
    | offered _ _ =>
      obtain ⟨-, rfl⟩ : cancelled = _ ∧ _ = _ := by simpa using hmem
      exact .inl ⟨_, List.mem_append_right _ (List.mem_singleton_self _), rfl⟩
  | _ => simp at hmem

/-- An attempt tells that it published only if it offered an artifact which was taken. -/
theorem Lived.published (h : Lived a acts words) {e : Event} (he : e ∈ words)
    (hkind : e.kind = .attemptPublished) : ∃ cancelled, .offered cancelled .published ∈ acts := by
  rcases h.of_mem he with ⟨text, rfl⟩ | ⟨outcome, rest, how, hsettles, rfl, rfl⟩
  · cases hkind
  · cases hsettles with
    | gaveUp => cases hkind
    | @offered _ cancelled succeeded verdict _ _ =>
      cases verdict with
      | published => exact ⟨cancelled, by simp⟩
      | cancelled | superseded => cases hkind

/-- The reason with which an attempt tells that it was discarded. -/
theorem Lived.discarded (h : Lived a acts words) {e : Event} (he : e ∈ words)
    (hkind : e.kind = .attemptDiscarded) :
    (e.reason = some "compiler_cancelled" ↔ .answered (.refused .canceled) ∈ acts) ∧
    (e.reason = some "cancelled" ↔ ∃ verdict, .offered true verdict ∈ acts) ∧
    (e.reason = some "superseded" ↔ .answered (.refused .canceled) ∉ acts ∧
      ∀ verdict, .offered true verdict ∉ acts) := by
  rcases h.of_mem he with ⟨text, rfl⟩ | ⟨outcome, rest, how, hsettles, rfl, rfl⟩
  · cases hkind
  · cases hsettles with
    | gaveUp => simp [lastEvent, event, Event.withElapsed, Conclusion.reason]
    | @offered _ cancelled succeeded verdict ho hcancelled =>
      cases verdict with
      | published => cases hkind
      | cancelled =>
        have hc := hcancelled.1 rfl
        simp [lastEvent, event, Event.withElapsed, Conclusion.reason, Conclusion.ofOffer, hc,
          Ne.symm ho]
      | superseded =>
        have hc : cancelled = false := by
          cases cancelled with
          | true => cases hcancelled.2 rfl
          | false => rfl
        simp [lastEvent, event, Event.withElapsed, Conclusion.reason, Conclusion.ofOffer, hc,
          Ne.symm ho]

theorem Lived.of_queued (h : Lived a acts words) (hs : a.stage = .queued) :
    acts = [] ∧ words = [] := by
  cases h <;> simp_all [Stage.untold?, Stage.told?]

/-- An attempt that has not begun has said nothing. -/
theorem Lived.of_not_begun (h : Lived a acts words) (hnot : .begun ∉ acts) :
    words = [] ∧ (a.stage = .queued ∨ a.stage = .finished none) := by
  cases h with
  | waiting hs => exact ⟨rfl, hs⟩
  | _ => simp at hnot

theorem Lived.of_calledOff (h : Lived a acts words) (hs : a.stage = .finished none) :
    acts = [] ∧ words = [] := by
  cases h <;> simp_all [Stage.untold?, Stage.told?]

/-- An attempt that has begun and is finished has told how it ended. -/
theorem Lived.of_isFinished (h : Lived a acts words) (hf : a.isFinished = true)
    (hbegun : .begun ∈ acts) : ∃ how, a.stage.told? = some how := by
  unfold isFinished at hf
  split at hf
  · next how hs =>
    cases how with
    | none => simp [(h.of_calledOff hs).1] at hbegun
    | some how => exact ⟨how, by rw [hs]; rfl⟩
  · cases hf

theorem Lived.of_compiling (h : Lived a acts words) (hs : a.stage = .compiling) :
    acts = [.begun] ∧ words = [] := by
  cases h <;> simp_all [Stage.untold?, Stage.told?]

theorem Lived.of_panicking (h : Lived a acts words) {text : String}
    (hs : a.stage = .panicking text ∨ ∃ e, a.stage = .sendingPanic text e) :
    ∃ payload, payload.text = text ∧ acts = [.begun, .answered (.panicked payload)] ∧
      words = [] := by
  rcases hs with hs | ⟨e, hs⟩ <;> cases h <;> simp_all [Stage.untold?, Stage.told?]

theorem Lived.of_offering (h : Lived a acts words) {artifact : Artifact α}
    (hs : a.stage = .offering artifact) :
    ∃ outcome, outcome ≠ .refused .canceled ∧ acts = [.begun, .answered outcome] ∧
      words = a.panics outcome := by
  cases h <;> simp_all [Stage.untold?, Stage.told?]

theorem Lived.of_untold (h : Lived a acts words) {how : Conclusion}
    (hs : a.stage.untold? = some how) :
    ∃ outcome rest, Settles outcome rest how ∧ acts = .begun :: .answered outcome :: rest ∧
      words = a.panics outcome := by
  cases h with
  | settled hs' hsettles =>
    obtain rfl : how = _ := Option.some.inj (hs.symm.trans hs')
    exact ⟨_, _, hsettles, rfl, rfl⟩
  | waiting hs' => rcases hs' with hs' | hs' <;> simp [hs', Stage.untold?] at hs
  | compiling hs' | offering hs' _ => simp [hs', Stage.untold?] at hs
  | panicking hs' => rcases hs' with hs' | ⟨e, hs'⟩ <;> simp [hs', Stage.untold?] at hs
  | told hs' _ => cases hstage : a.stage <;> simp_all [Stage.untold?, Stage.told?]

theorem Lived.of_told (h : Lived a acts words) {how : Conclusion}
    (hs : a.stage.told? = some how) :
    ∃ outcome rest, Settles outcome rest how ∧ acts = .begun :: .answered outcome :: rest ∧
      words = a.panics outcome ++ [a.lastEvent how] := by
  cases h with
  | told hs' hsettles =>
    obtain rfl : how = _ := Option.some.inj (hs.symm.trans hs')
    exact ⟨_, _, hsettles, rfl, rfl⟩
  | waiting hs' => rcases hs' with hs' | hs' <;> simp [hs', Stage.told?] at hs
  | compiling hs' | offering hs' _ => simp [hs', Stage.told?] at hs
  | panicking hs' => rcases hs' with hs' | ⟨e, hs'⟩ <;> simp [hs', Stage.told?] at hs
  | settled hs' _ => cases hstage : a.stage <;> simp_all [Stage.untold?, Stage.told?]

end Attempt

namespace Service

variable {α : Type} {s t s₀ : Service α} {action : Action α} {actions : List (Action α)}
  {sent told : List Stamped} {g : Generation} {acts : List (Attempt.Act α)} {words : List Event}

/-! ## Who speaks of an attempt -/

/-- Only the run that starts an attempt and the attempt itself speak of it. -/
theorem Step.of_isOfAttempt (h : Step s action t sent) (hs : s.Reachable) {e : Stamped}
    (he : e ∈ sent) (hof : e.event.isOfAttempt g = true) :
    (∃ r text, action = .proceed r.id ∧ s.run? r.id = some r ∧ r.stage = .announcing text g) ∨
      (actor? action = some g ∧ ∃ a, s.attempt? g = some a) := by
  cases h.sentBy hs.signed he with
  | run hr hrun _ =>
    cases hrun
    case announceStart text k hs =>
      cases List.mem_singleton.1 he
      have hk : k = g := by simpa [Event.isOfAttempt, runEvent] using hof
      subst hk
      exact .inl ⟨_, text, rfl, hr, hs⟩
    case announceChange | announceSuperseded | announceGrace | announceEnd =>
      cases List.mem_singleton.1 he
      simp [Event.isOfAttempt, runEvent, Event.withElapsed] at hof
    all_goals cases he
  | start _ hevent =>
    rw [hevent] at hof
    simp [Event.isOfAttempt, runEvent] at hof
  | @panic a text haction ha _ hevent =>
    rw [hevent, a.isOfAttempt_panicEvent, decide_eq_true_eq] at hof
    subst hof
    exact .inr ⟨congrArg actor? haction, a, ha⟩
  | @last a how haction ha _ hevent =>
    rw [hevent, a.isOfAttempt_lastEvent, decide_eq_true_eq] at hof
    subst hof
    exact .inr ⟨congrArg actor? haction, a, ha⟩
  | @retrieval i haction _ =>
    subst haction
    have hcall := h.isOfCall_of_ask hs e he
    exact absurd (hof.symm.trans (Event.isOfAttempt_of_isOfCall hcall)) Bool.noConfusion

/-- Nothing is said of an attempt in a step that neither announces it nor is its own. -/
theorem Step.biography_eq_nil (h : Step s action t sent) (hs : s.Reachable)
    (hstart : ∀ r text, action = .proceed r.id → s.run? r.id = some r →
      r.stage ≠ .announcing text g)
    (hown : actor? action = some g → s.attempt? g = none) : biography g sent = [] := by
  refine Service.biography_eq_nil fun e he => ?_
  cases hof : e.event.isOfAttempt g with
  | false => rfl
  | true =>
    rcases h.of_isOfAttempt hs he hof with ⟨r, text, haction, hr, hstage⟩ | ⟨hactor, a, ha⟩
    · exact absurd hstage (hstart r text haction hr)
    · cases ha.symm.trans (hown hactor)

/-- A run that holds a number is about to raise the floor, to announce its attempt or to launch
it. -/
theorem exists_of_pledge? {id : Nat} {p : Run.Pledge} (hp : s.pledge? id = some p) :
    ∃ r, s.run? r.id = some r ∧ (r.stage = .raising p.text p.generation ∨
      r.stage = .announcing p.text p.generation ∨ r.stage = .launching p.text p.generation) := by
  obtain ⟨r, hr, hstage⟩ := Option.bind_eq_some_iff.1 hp
  refine ⟨r, id_of_run? hr ▸ hr, ?_⟩
  unfold Run.pledge? at hstage
  split at hstage
  · next hs =>
    cases hstage
    exact .inl hs
  · next hs =>
    cases hstage
    exact .inr (.inl hs)
  · next hs =>
    cases hstage
    exact .inr (.inr hs)
  · cases hstage

/-- A run that is about to announce or to launch an attempt holds its number. -/
theorem pledge?_of_stage {r : Run} {id : Nat} {text : String} (hr : s.run? id = some r)
    (hs : r.stage = .announcing text g ∨ r.stage = .launching text g) :
    s.pledge? id = some ⟨text, g, true⟩ := by
  rcases hs with hs | hs <;> simp [pledge?, hr, Run.pledge?, hs]

/-- Others say nothing of an attempt that is there. -/
theorem Step.biography_of_touched (h : Step s action t sent) (hs : s.Reachable) {a : Attempt α}
    (ha : s.attempt? g = some a) (hactor : actor? action ≠ some g) : biography g sent = [] := by
  refine h.biography_eq_nil hs (fun r text _ hr hstage => ?_) fun hown => absurd hown hactor
  have hunused := hs.numbered.pledge_unused (pledge?_of_stage hr (.inl hstage))
  cases ha.symm.trans hunused

/-! ## The acts of an attempt -/

/-- What the attempt `g` does in an action. -/
def act? (g : Generation) (s : Service α) (action : Action α) : Option (Attempt.Act α) :=
  (s.attempt? g).bind fun a =>
    match action with
    | .take k => if k = g ∧ a.calledOff = false then some .begun else none
    | .compiled k outcome => if k = g then some (.answered outcome) else none
    | .finish k =>
      match a.stage with
      | .offering artifact =>
        if k = g then some (.offered a.cancelled (s.slot.verdict artifact a.cancelled)) else none
      | _ => none
    | _ => none

theorem act?_of_absent (h : s.attempt? g = none) : s.act? g action = none := by
  simp [act?, h]

theorem act?_of_touched (h : actor? action ≠ some g) : s.act? g action = none := by
  refine Option.bind_eq_none_iff.2 fun a ha => ?_
  cases action with
  | take k => exact if_neg fun hk => h (congrArg some hk.1)
  | compiled k outcome => exact if_neg fun hk => h (congrArg some hk)
  | finish k =>
    dsimp only
    split
    · exact if_neg fun hk => h (congrArg some hk)
    · rfl
  | _ => rfl

/-- A step of an attempt of its own goes on with its life. -/
theorem AttemptStep.lived {a a' : Attempt α} (h : AttemptStep s a action a' t sent)
    (hsigned : a.Signed) (ha : s.attempt? a.generation = some a) (hl : a.Lived acts words) :
    a'.Lived (acts ++ (s.act? a.generation action).toList)
      (words ++ biography a.generation sent) := by
  have quiet {a' : Attempt α} {action : Action α}
      (hact : s.act? a.generation action = none) (hl : a'.Lived acts words) :
      a'.Lived (acts ++ (s.act? a.generation action).toList)
        (words ++ biography a.generation []) := by
    simpa [hact, biography] using hl
  have settled {stage : Attempt.Stage α} {outcome : Outcome α} {rest : List (Attempt.Act α)}
      {how : Attempt.Conclusion} (hstage : stage.untold? = some how)
      (hsettles : Attempt.Settles outcome rest how) :
      { a with stage }.Lived (.begun :: .answered outcome :: rest) (a.panics outcome) :=
    .settled hstage hsettles
  cases h with
  | take hstage =>
    obtain ⟨rfl, rfl⟩ := hl.of_queued hstage
    unfold taken
    cases hcalled : a.calledOff with
    | true => simpa [act?, ha, hcalled, biography] using Attempt.Lived.waiting (.inr rfl)
    | false => simpa [act?, ha, hcalled, biography] using Attempt.Lived.compiling rfl
  | cancelItself hstage =>
    exact quiet (by simp [act?]) (hl.congr rfl rfl rfl rfl)
  | @answer outcome hstage =>
    obtain ⟨rfl, rfl⟩ := hl.of_compiling hstage
    have hact : s.act? a.generation (.compiled a.generation outcome) =
        some (.answered outcome) := by
      simp [act?, ha]
    rw [hact]
    cases outcome with
    | value v => exact .offering rfl nofun
    | refused why =>
      cases why with
      | diagnostics ds => exact .offering rfl (by simp)
      | canceled => exact .settled rfl .gaveUp
    | panicked payload => exact .panicking (.inl rfl)
  | @move move hmove =>
    cases Attempt.MoveStep.of_next? hmove with
    | stampPanic hstage =>
      obtain ⟨payload, rfl, rfl, rfl⟩ := hl.of_panicking (.inl hstage)
      exact quiet (by simp [act?, ha, hstage]) (.panicking (.inr ⟨_, rfl⟩))
    | @sendPanic text e hstage =>
      obtain ⟨payload, rfl, rfl, rfl⟩ := hl.of_panicking (.inr ⟨_, hstage⟩)
      have hevent := hsigned.panic hstage
      have hsaid : biography a.generation [e] = [a.panicEvent payload.text] := by
        rw [← hevent]
        exact biography_singleton (by simp [hevent, a.isOfAttempt_panicEvent])
      have hact : s.act? a.generation (.finish a.generation) = none := by simp [act?, ha, hstage]
      rw [hact]
      exact hsaid ▸ Attempt.Lived.offering rfl nofun
    | @accepted artifact hstage hv =>
      obtain ⟨outcome, ho, rfl, rfl⟩ := hl.of_offering hstage
      have hact : s.act? a.generation (.finish a.generation) =
          some (.offered a.cancelled .published) := by simp [act?, ha, hstage, hv]
      have hsettles : Attempt.Settles outcome [.offered a.cancelled .published]
          (.published artifact.succeeded) :=
        .offered ho (by simp [(Slot.verdict_eq_published_iff.1 hv).1])
      rw [hact]
      simpa [biography] using settled rfl hsettles
    | @refused artifact hstage hv =>
      obtain ⟨outcome, ho, rfl, rfl⟩ := hl.of_offering hstage
      have hact : s.act? a.generation (.finish a.generation) =
          some (.offered a.cancelled (s.slot.verdict artifact a.cancelled)) := by
        simp [act?, ha, hstage]
      have hsettles : Attempt.Settles outcome
          [.offered a.cancelled (s.slot.verdict artifact a.cancelled)]
          (.ofOffer artifact.succeeded (s.slot.verdict artifact a.cancelled)) :=
        .offered ho Slot.verdict_eq_cancelled_iff
      rw [hact]
      simpa [biography] using settled rfl hsettles
    | notify hstage =>
      obtain ⟨outcome, rest, hsettles, rfl, rfl⟩ := hl.of_untold (by rw [hstage]; rfl)
      exact quiet (by simp [act?, ha, hstage]) (.settled rfl hsettles)
    | stampEnd hstage =>
      obtain ⟨outcome, rest, hsettles, rfl, rfl⟩ := hl.of_untold (by rw [hstage]; rfl)
      exact quiet (by simp [act?, ha, hstage]) (.settled rfl hsettles)
    | @sendEnd how e hstage =>
      obtain ⟨outcome, rest, hsettles, rfl, rfl⟩ := hl.of_untold (by rw [hstage]; rfl)
      have hevent := hsigned.last hstage
      have hsaid : biography a.generation [e] = [a.lastEvent how] := by
        rw [← hevent]
        exact biography_singleton (by simp [hevent, a.isOfAttempt_lastEvent])
      have hact : s.act? a.generation (.finish a.generation) = none := by simp [act?, ha, hstage]
      rw [hact, Option.toList_none, List.append_nil]
      exact hsaid ▸ Attempt.Lived.told rfl hsettles
    | leave hstage =>
      obtain ⟨outcome, rest, hsettles, rfl, rfl⟩ := hl.of_told (by rw [hstage]; rfl)
      exact quiet (by simp [act?, ha, hstage]) (.told rfl hsettles)

/-! ## From the number to the announcement -/

/-- An attempt that was not there is there only if its run has just launched it. -/
theorem Step.attempt?_of_none (h : Step s action t sent) (hnone : s.attempt? g = none) :
    t.attempt? g = none ∨ ∃ r text, action = .proceed r.id ∧ s.run? r.id = some r ∧
      r.stage = .launching text g ∧ sent = [] ∧
      t.attempt? g = some { generation := g, run := r.id, source := text } := by
  cases h with
  | @run r r' _ _ _ hr h =>
    rcases h.attempt? g with hrel | ⟨text, hs, -, hnew⟩
    · rw [hnone] at hrel
      exact .inl (eq_none_of_rel hrel)
    · obtain ⟨haction, hsent⟩ : action = .proceed r.id ∧ sent = [] := by
        cases h <;> simp_all
      exact .inr ⟨r, text, haction, hr, hs, hsent, hnew⟩
  | @attempt a a' _ _ _ ha h =>
    refine .inl ?_
    rw [h.attempt? ha, if_neg]
    · exact hnone
    · rintro rfl
      cases ha.symm.trans hnone
  | _ => exact .inl hnone

/-- A run that is about to launch an attempt has just announced it, or was about to launch it
before. -/
theorem Step.of_launching (h : Step s action t sent) {r' : Run} {text : String}
    (hr' : t.run? r'.id = some r') (hs' : r'.stage = .launching text g) :
    (∃ r, r.id = r'.id ∧ s.run? r.id = some r ∧ r.stage = .launching text g) ∨
      sent = [⟨s.nextSeq, startEvent r'.id g text⟩] := by
  rcases h.run? r'.id with hsame | ⟨r, hr, htold⟩ | ⟨r, r₁, hid, hr, hr₁, hrun⟩ | ⟨-, -, hnew⟩
  · exact .inl ⟨r', rfl, hsame ▸ hr', hs'⟩
  · have hid := id_of_run? hr
    cases hr'.symm.trans htold
    exact .inl ⟨r, hid, hid ▸ hr, hs'⟩
  · cases hr'.symm.trans hr₁
    cases hrun
    case announceStart hs =>
      cases hs'
      exact .inr rfl
    case glance => exact .inl ⟨r', rfl, hr, hs'⟩
    all_goals cases hs'
  · rw [Option.some.inj (hr'.symm.trans hnew)] at hs'
    cases hs'

/-- A run that announces an attempt launches it next. -/
theorem Step.launching_of_announcing {r : Run} {text : String} (h : Step s (.proceed r.id) t sent)
    (hs : s.Reachable) (hr : s.run? r.id = some r) (hstage : r.stage = .announcing text g) :
    t.run? r.id = some { r with stage := .launching text g } := by
  rcases h.own_or_other hs.signed hr with ⟨-, r', hr', hrun⟩ | ⟨hother, -, -⟩
  · generalize haction : Action.proceed r.id = action at hrun
    cases hrun <;> simp_all
  · exact absurd rfl hother

/-- What the attempt `g` has done and what is said of it, from before its announcement on. -/
inductive Told (s : Service α) (g : Generation) : List (Attempt.Act α) → List Event → Prop
  /-- It is not announced. -/
  | unborn : s.attempt? g = none →
      (∀ r text, s.run? r.id = some r → r.stage ≠ .launching text g) → Told s g [] []
  /-- Its run has announced it and is about to launch it. -/
  | announced {r : Run} {text : String} : s.attempt? g = none → s.run? r.id = some r →
      r.stage = .launching text g → Told s g [] [startEvent r.id g text]
  /-- It is there, and has come somewhere. -/
  | lived {a : Attempt α} {acts : List (Attempt.Act α)} {words : List Event} :
      s.attempt? g = some a → a.Lived acts words →
      Told s g acts (startEvent a.run g a.source :: words)

theorem Told.of_attempt? {a : Attempt α} {bio : List Event} (h : s.Told g acts bio)
    (ha : s.attempt? g = some a) :
    ∃ words, a.Lived acts words ∧ bio = startEvent a.run g a.source :: words := by
  cases h with
  | unborn hnone _ | announced hnone _ _ => cases ha.symm.trans hnone
  | lived ha' hlived =>
    cases ha.symm.trans ha'
    exact ⟨_, hlived, rfl⟩

/-- Only an attempt that is there acts. -/
theorem Told.of_act {bio : List Event} (h : s.Told g acts bio) {act : Attempt.Act α}
    (hact : act ∈ acts) : ∃ a words, s.attempt? g = some a ∧ a.Lived acts words ∧
      bio = startEvent a.run g a.source :: words := by
  cases h with
  | unborn _ _ | announced _ _ _ => cases hact
  | lived ha hl => exact ⟨_, _, ha, hl, rfl⟩

/-- What is said of an attempt is its announcement, or it says that itself. -/
theorem Told.of_mem {bio : List Event} (h : s.Told g acts bio) {e : Event} (he : e ∈ bio) :
    e.kind = .attemptStarting ∨
      ∃ a words, s.attempt? g = some a ∧ a.Lived acts words ∧ e ∈ words := by
  cases h with
  | unborn _ _ => cases he
  | announced _ _ _ =>
    cases List.mem_singleton.1 he
    exact .inl rfl
  | lived ha hl =>
    rcases List.mem_cons.1 he with rfl | he
    · exact .inl rfl
    · exact .inr ⟨_, _, ha, hl, he⟩

/-- The announcement comes first, and only once. -/
theorem Told.opens {bio : List Event} (h : s.Told g acts bio) :
    (bio = [] ∧ s.attempt? g = none ∧
      ∀ r text, s.run? r.id = some r → r.stage ≠ .launching text g) ∨
    ∃ id text words, bio = startEvent id g text :: words ∧
      ∀ e ∈ words, e.kind ≠ .attemptStarting ∧ e.source = some text := by
  cases h with
  | unborn hnone hidle => exact .inl ⟨rfl, hnone, hidle⟩
  | announced _ _ _ => exact .inr ⟨_, _, [], rfl, fun e he => absurd he List.not_mem_nil⟩
  | lived _ hl => exact .inr ⟨_, _, _, rfl, fun e he => hl.word he⟩

/-- An attempt that is not announced is announced by its run, or nothing is said of it. -/
theorem Told.step_unborn (h : Step s action t sent) (hs : s.Reachable)
    (hnone : s.attempt? g = none)
    (hidle : ∀ r text, s.run? r.id = some r → r.stage ≠ .launching text g) :
    t.Told g [] (biography g sent) := by
  have hnone' : t.attempt? g = none := by
    rcases h.attempt?_of_none hnone with hnone' | ⟨r, text, -, hr, hstage, -, -⟩
    · exact hnone'
    · exact absurd hstage (hidle r text hr)
  by_cases hlaunching : ∃ r text, t.run? r.id = some r ∧ r.stage = .launching text g
  · obtain ⟨r', text, hr', hstage⟩ := hlaunching
    rcases h.of_launching hr' hstage with ⟨r, -, hr, hstage'⟩ | rfl
    · exact absurd hstage' (hidle r text hr)
    · rw [biography_singleton (isOfAttempt_startEvent r'.id g text)]
      exact .announced hnone' hr' hstage
  · have hidle' : ∀ r text, t.run? r.id = some r → r.stage ≠ .launching text g :=
      fun r text hr hstage => hlaunching ⟨r, text, hr, hstage⟩
    rw [h.biography_eq_nil hs (fun r text haction hr hstage => ?_) fun _ => hnone]
    · exact .unborn hnone' hidle'
    · subst haction
      have hr' := h.launching_of_announcing hs hr hstage
      exact hidle' { r with stage := .launching text g } text hr' rfl

/-- An attempt that is announced is launched by its run, and nothing is said of it. -/
theorem Told.step_announced (h : Step s action t sent) (hs : s.Reachable) {r : Run} {text : String}
    (hnone : s.attempt? g = none) (hr : s.run? r.id = some r)
    (hstage : r.stage = .launching text g) :
    t.Told g [] (startEvent r.id g text :: biography g sent) := by
  -- no other run holds the number
  have only {r' : Run} {text' : String} (hr' : s.run? r'.id = some r')
      (hs' : r'.stage = .announcing text' g ∨ r'.stage = .launching text' g) : r' = r := by
    have hid := hs.numbered.pledge_unique (pledge?_of_stage hr' hs')
      (pledge?_of_stage hr (.inr hstage)) rfl
    exact Option.some.inj (hr'.symm.trans (hid ▸ hr))
  have hquiet : biography g sent = [] := by
    refine h.biography_eq_nil hs (fun r' text' _ hr' hs' => ?_) fun _ => hnone
    cases only hr' (.inl hs')
    cases hs'.symm.trans hstage
  rw [hquiet]
  rcases h.attempt?_of_none hnone with hnone' | ⟨r', text', -, hr', hs', -, hnew⟩
  · rcases h.own_or_other hs.signed hr with ⟨-, r', -, hrun⟩ | ⟨-, ⟨r', hr', hs'⟩, -⟩
    · exact absurd hnone' (hrun.attempt?_ne_none hstage)
    · have hid := id_of_run? hr'
      rw [← hid]
      exact .announced hnone' (hid ▸ hr') (hs'.trans hstage)
  · cases only hr' (.inr hs')
    cases hs'.symm.trans hstage
    exact .lived hnew (.waiting (.inl rfl))

/-- What is said of an attempt that is there is what it says. -/
theorem Told.step_lived (h : Step s action t sent) (hs : s.Reachable) {a : Attempt α}
    (ha : s.attempt? g = some a) (hl : a.Lived acts words) :
    t.Told g (acts ++ (s.act? g action).toList)
      (startEvent a.run g a.source :: words ++ biography g sent) := by
  obtain rfl := generation_of_attempt? ha
  rcases h.own_or_touch ha with ⟨a', hown, ha'⟩ | ⟨a', ha', htouch, hactor⟩
  · obtain ⟨-, hrun, hsource⟩ := hown.change.identity
    rw [← hrun, ← hsource]
    exact .lived ha' (hown.lived (hs.signed.attempt ha) ha hl)
  · obtain ⟨hgeneration, hrun, hsource, hstage⟩ := htouch.kept
    have hspent : a'.spent = a.spent := by cases htouch <;> rfl
    rw [act?_of_touched hactor, h.biography_of_touched hs ha hactor, ← hrun, ← hsource,
      Option.toList_none, List.append_nil, List.append_nil]
    exact .lived ha' (hl.congr hstage hgeneration hsource hspent)

/-- One action adds to an attempt's acts what it does, and to what is said of it what is sent. -/
theorem Told.step {bio : List Event} (h : s.Told g acts bio) (hs : s.Reachable)
    (hstep : Step s action t sent) :
    t.Told g (acts ++ (s.act? g action).toList) (bio ++ biography g sent) := by
  cases h with
  | unborn hnone hidle =>
    rw [act?_of_absent hnone]
    exact step_unborn hstep hs hnone hidle
  | announced hnone hr hstage =>
    rw [act?_of_absent hnone]
    exact step_announced hstep hs hnone hr hstage
  | lived ha hl => exact step_lived hstep hs ha hl

/-- All that the attempt `g` does in a history, and all that is said of it. -/
theorem told_of_steps? {config : Config} {sink : MessageSink} {text : String}
    (hsteps : (ofConfig config sink text : Service α).steps? actions = some (s, sent))
    (g : Generation) :
    s.Told g ((ofConfig config sink text).observe (act? g) actions) (biography g sent) := by
  have horigin : (ofConfig config sink text : Service α).Told g [] [] :=
    .unborn rfl fun r text' hr => by cases hr
  refine steps?_induct (motive := fun actions s sent =>
    s.Told g ((ofConfig config sink text).observe (act? g) actions) (biography g sent))
    (fun {first u v a told more} hfirst hone ih => ?_) horigin hsteps
  rw [observe_snoc hfirst hone, biography_append]
  exact ih.step ⟨config, sink, text, first, told, hfirst⟩ (.of_step? hone)

/-! ## Numbers that were handed out -/

/-- Does a run hold the number `k`, or is there an attempt with it? -/
def IsTaken (s : Service α) (k : Generation) : Prop :=
  (∃ id p, s.pledge? id = some p ∧ p.generation = k) ∨ ∃ a, s.attempt? k = some a

theorem NumberStep.exists_attempt? (h : NumberStep s t) {k : Generation} {a : Attempt α}
    (ha : s.attempt? k = some a) : ∃ a', t.attempt? k = some a' := by
  rcases h.attempt? k with hrel | ⟨-, -, -, hnone, -⟩
  · rw [ha] at hrel
    obtain ⟨a', ha', -⟩ := exists_of_some_rel hrel
    exact ⟨a', ha'⟩
  · cases ha.symm.trans hnone

/-- A number that is taken stays so. -/
theorem NumberStep.isTaken (h : NumberStep s t) {k : Generation} (hk : s.IsTaken k) :
    t.IsTaken k := by
  rcases hk with ⟨id, p, hp, rfl⟩ | ⟨a, ha⟩
  · cases h with
    | quiet hpledge _ _ _ | publish _ _ _ hpledge _ _ _ _ =>
      exact .inl ⟨id, p, (hpledge id).trans hp, rfl⟩
    | @number id' _ hnone hpledge _ _ _ =>
      have hne : id ≠ id' := by
        rintro rfl
        cases hp.symm.trans hnone
      exact .inl ⟨id, p, by rw [hpledge, if_neg hne, hp], rfl⟩
    | @raise id' text g hold hpledge _ _ _ =>
      by_cases hid : id = id'
      · subst hid
        cases hp.symm.trans hold
        exact .inl ⟨id, ⟨text, g, true⟩, by rw [hpledge, if_pos rfl], rfl⟩
      · exact .inl ⟨id, p, by rw [hpledge, if_neg hid, hp], rfl⟩
    | @launch id' text g hold hpledge _ _ hthere _ =>
      by_cases hid : id = id'
      · subst hid
        cases hp.symm.trans hold
        exact .inr (Option.ne_none_iff_exists'.1 hthere)
      · exact .inl ⟨id, p, by rw [hpledge, if_neg hid, hp], rfl⟩
  · exact .inr (h.exists_attempt? ha)

/-- A number that is handed out is taken by the run that gets it. -/
theorem Step.isTaken_of_handedOut? (h : Step s action t sent)
    (hg : s.handedOut? action = some g) : t.IsTaken g := by
  have hgeneration := h.generation_of_handedOut? hg
  obtain ⟨id, r, text, rfl, hr, hstage, rfl⟩ := handedOut?_eq_some_iff.1 hg
  cases h.numberStep with
  | number _ hpledge _ _ _ => exact .inl ⟨_, _, by rw [hpledge, if_pos rfl], rfl⟩
  | quiet _ hsame _ _ | raise _ _ hsame _ _ | launch _ _ hsame _ _ _
  | publish _ _ _ _ hsame _ _ _ =>
    exact absurd (hgeneration.symm.trans hsame) (Nat.succ_ne_self _)

/-- Every number that was handed out is taken. -/
theorem isTaken_of_mem_observe (hsteps : s₀.steps? actions = some (s, sent)) :
    ∀ k ∈ s₀.observe handedOut? actions, s.IsTaken k := by
  refine observe_induct (motive := fun u seen => ∀ k ∈ seen, u.IsTaken k)
    (fun {u v a told seen} _ _ hone hseen k hk => ?_) hsteps nofun
  have hstep := Step.of_step? hone
  rcases List.mem_append.1 hk with hold | hnow
  · exact hstep.numberStep.isTaken (hseen k hold)
  · exact hstep.isTaken_of_handedOut? (Option.mem_toList.1 hnow)

/-! ## What is still to be said -/

/-- Can `action` happen `n` times, and is `e` all that is said of the attempt `g` meanwhile? -/
def SaysAfter (s : Service α) (n : Nat) (action : Action α) (g : Generation) (e : Event) : Prop :=
  ∃ t sent, s.steps? (List.replicate n action) = some (t, sent) ∧ biography g sent = [e]

theorem SaysAfter.of_step? {e : Event} (h : s.step? action = some (t, sent))
    (hsaid : biography g sent = [e]) : s.SaysAfter 1 action g e :=
  ⟨t, sent, by simp [steps?_cons, h], hsaid⟩

theorem SaysAfter.succ {n : Nat} {e : Event} (h : t.SaysAfter n action g e)
    (hstep : s.step? action = some (t, [])) : s.SaysAfter (n + 1) action g e := by
  obtain ⟨u, sent, hsteps, hsaid⟩ := h
  exact ⟨u, sent, by simp [List.replicate_succ, steps?_cons, hstep, hsteps], hsaid⟩

/-- A run that is about to announce an attempt does so with its next step. -/
theorem saysAfter_of_announcing {r : Run} {text : String} (hr : s.run? r.id = some r)
    (hs : r.stage = .announcing text g) :
    s.SaysAfter 1 (.proceed r.id) g (startEvent r.id g text) := by
  have hstep : s.step? (.proceed r.id) = some ((s.moveRun r.id (.launching text g)).stamped,
      [⟨s.nextSeq, startEvent r.id g text⟩]) := by
    simp [step?, hr, proceed?, hs, announce, stamped, startEvent, moveRun, updateRun]
  exact .of_step? hstep (biography_singleton (isOfAttempt_startEvent r.id g text))

/-- A run that is about to raise the floor announces its attempt after that. -/
theorem saysAfter_of_raising {r : Run} {text : String} (hr : s.run? r.id = some r)
    (hs : r.stage = .raising text g) :
    s.SaysAfter 2 (.proceed r.id) g (startEvent r.id g text) := by
  have hstep : s.step? (.proceed r.id) =
      some ((s.putSlot (s.slot.advance g)).moveRun r.id (.announcing text g), []) := by
    simp [step?, hr, proceed?, hs]
  have hnext : ((s.putSlot (s.slot.advance g)).moveRun r.id (.announcing text g)).run? r.id =
      some { r with stage := .announcing text g } := by
    simp [run?_moveRun, hr]
  have hsays := saysAfter_of_announcing (r := { r with stage := .announcing text g }) hnext rfl
  exact hsays.succ hstep

/-- An attempt that can go on of its own accord does so in one step. -/
theorem step?_finish {a : Attempt α} {move : Attempt.Move α} (ha : s.attempt? g = some a)
    (hmove : a.next? s.nextSeq s.slot = some move) :
    s.step? (.finish g) = some (s.afterMove a move, move.sent.toList) ∧
      (s.afterMove a move).attempt? g = some move.attempt := by
  obtain rfl := generation_of_attempt? ha
  constructor
  · simp only [step?, ha, Option.bind_some, finish?, hmove, Option.map_some]
    rfl
  · rw [(AttemptStep.move hmove).attempt? ha, if_pos rfl]

theorem Reachable.saysAfter_of_sending (hs : s.Reachable) {a : Attempt α}
    {how : Attempt.Conclusion} {e : Stamped} (ha : s.attempt? g = some a)
    (hstage : a.stage = .sending how e) : s.SaysAfter 1 (.finish g) g (a.lastEvent how) := by
  obtain rfl := generation_of_attempt? ha
  have hnext : a.next? s.nextSeq s.slot =
      some { attempt := { a with stage := .leaving how }, slot := s.slot, sent := some e } := by
    simp [Attempt.next?, hstage]
  have hevent := (hs.signed.attempt ha).last hstage
  refine .of_step? (step?_finish ha hnext).1 ?_
  rw [← hevent]
  exact biography_singleton (by simp [hevent, a.isOfAttempt_lastEvent])

theorem Reachable.saysAfter_of_concluding (hs : s.Reachable) {a : Attempt α}
    {how : Attempt.Conclusion} (ha : s.attempt? g = some a) (hstage : a.stage = .concluding how) :
    s.SaysAfter 2 (.finish g) g (a.lastEvent how) := by
  have hnext : a.next? s.nextSeq s.slot =
      some { attempt := { a with stage := .sending how ⟨s.nextSeq, a.lastEvent how⟩ }
             slot := s.slot, stamps := true } := by
    simp [Attempt.next?, hstage]
  obtain ⟨hstep, hthere⟩ := step?_finish ha hnext
  exact ((hs.step hstep).saysAfter_of_sending hthere rfl).succ hstep

theorem Reachable.saysAfter_of_stored (hs : s.Reachable) {a : Attempt α} {succeeded : Bool}
    (ha : s.attempt? g = some a) (hstage : a.stage = .stored succeeded) :
    s.SaysAfter 3 (.finish g) g (a.lastEvent (.published succeeded)) := by
  have hnext : a.next? s.nextSeq s.slot =
      some { attempt := { a with stage := .concluding (.published succeeded) }
             slot := s.slot, notifies := true } := by
    simp [Attempt.next?, hstage]
  obtain ⟨hstep, hthere⟩ := step?_finish ha hnext
  exact ((hs.step hstep).saysAfter_of_concluding hthere rfl).succ hstep

/-- An attempt whose end is settled tells it after three more steps at most. -/
theorem Reachable.saysAfter_of_untold (hs : s.Reachable) {a : Attempt α}
    {how : Attempt.Conclusion} (ha : s.attempt? g = some a) (huntold : a.stage.untold? = some how) :
    ∃ n ≤ 3, s.SaysAfter n (.finish g) g (a.lastEvent how) := by
  cases hstage : a.stage <;> simp only [hstage, Attempt.Stage.untold?, Option.some.injEq] at huntold
  case stored succeeded => exact ⟨3, Nat.le_refl 3, huntold ▸ hs.saysAfter_of_stored ha hstage⟩
  case concluding _ => exact ⟨2, by decide, huntold ▸ hs.saysAfter_of_concluding ha hstage⟩
  case sending _ e => exact ⟨1, by decide, huntold ▸ hs.saysAfter_of_sending ha hstage⟩
  all_goals cases huntold

/-! ## What is stored and what is told -/

/-- An attempt makes an offer that is taken where the slot takes an artifact of its number. -/
theorem Numbered.act?_published_iff (h : Numbered s) :
    (∃ cancelled, s.act? g action = some (.offered cancelled .published)) ↔
      ∃ artifact, s.accepted? action = some artifact ∧ artifact.generation = g := by
  constructor
  · rintro ⟨cancelled, hact⟩
    obtain ⟨a, ha, hs⟩ := Option.bind_eq_some_iff.1 hact
    cases action with
    | take k | compiled k outcome =>
      dsimp only at hs
      split at hs <;> cases hs
    | finish k =>
      dsimp only at hs
      split at hs
      · next artifact hstage =>
        split at hs
        · next hk =>
          subst hk
          obtain ⟨-, hv⟩ : _ = cancelled ∧ _ = PublishOutcome.published := by simpa using hs
          exact ⟨artifact, accepted?_eq_some_iff.2 ⟨_, a, rfl, ha, hstage, hv⟩,
            (h.offered ha hstage).1⟩
        · cases hs
      · cases hs
    | _ => cases hs
  · rintro ⟨artifact, hacc, rfl⟩
    obtain ⟨k, a, rfl, ha, hstage, hv⟩ := accepted?_eq_some_iff.1 hacc
    obtain rfl := (h.offered ha hstage).1
    exact ⟨a.cancelled, by simp [act?, ha, hstage, hv]⟩

/-- Along a history, an attempt has made an offer that was taken if the slot has taken an artifact
of its number. -/
theorem published_mem_iff {config : Config} {sink : MessageSink} {text : String}
    (hsteps : (ofConfig config sink text : Service α).steps? actions = some (s, sent)) :
    (∃ cancelled, .offered cancelled .published ∈
        (ofConfig config sink text : Service α).observe (act? g) actions) ↔
      ∃ artifact ∈ (ofConfig config sink text : Service α).observe accepted? actions,
        artifact.generation = g := by
  refine steps?_induct (motive := fun actions _ _ =>
    (∃ cancelled, .offered cancelled .published ∈
        (ofConfig config sink text : Service α).observe (act? g) actions) ↔
      ∃ artifact ∈ (ofConfig config sink text : Service α).observe accepted? actions,
        artifact.generation = g)
    (fun {first u v a told more} hfirst hone ih => ?_) (by simp [observe]) hsteps
  have hu : u.Reachable := ⟨config, sink, text, first, told, hfirst⟩
  have hnow : (∃ cancelled, u.act? g a = some (.offered cancelled .published)) ↔
      ∃ artifact, u.accepted? a = some artifact ∧ artifact.generation = g :=
    hu.numbered.act?_published_iff
  rw [observe_snoc hfirst hone, observe_snoc hfirst hone]
  simp only [List.mem_append, Option.mem_toList, or_and_right, exists_or, ih, hnow]

/-! ## After the end -/

theorem AttemptStep.isFinished_eq_false {a a' : Attempt α} (h : AttemptStep s a action a' t sent) :
    a.isFinished = false := by
  cases h with
  | take hs | cancelItself hs | answer hs => simp [Attempt.isFinished, hs]
  | move hmove => cases Attempt.MoveStep.of_next? hmove <;> simp_all [Attempt.isFinished]

/-- Nothing more is said of an attempt that is finished. -/
theorem Reachable.biography_of_isFinished (hs : s.Reachable) {a : Attempt α}
    (ha : s.attempt? g = some a) (hf : a.isFinished = true)
    (hsteps : s.steps? actions = some (t, sent)) : biography g sent = [] := by
  induction actions generalizing s a sent with
  | nil =>
    cases hsteps
    rfl
  | cons action rest ih =>
    obtain ⟨u, now, more, hone, hrest⟩ := steps?_cons_eq_some hsteps
    have hstep := Step.of_step? hone
    rw [sent_of_steps?_cons hsteps hone hrest, biography_append]
    rcases hstep.own_or_touch ha with ⟨a', hown, -⟩ | ⟨a', ha', htouch, hactor⟩
    · cases hown.isFinished_eq_false.symm.trans hf
    · have hf' : a'.isFinished = true := (Change.touch (s := s) htouch).isFinished hf
      rw [hstep.biography_of_touched hs ha hactor, ih (hs.step hone) ha' hf' hrest]
      rfl

/-- When a run has said that it stopped, it has ended. -/
theorem exists_ended_of_stopped (hs₀ : s₀.Reachable) (hnone : s₀.runs = [])
    (hsteps : s₀.steps? actions = some (s, sent)) {id : Nat}
    (hword : runEvent .engineStopped id ∈ said id sent) :
    ∃ r result, s.run? id = some r ∧ r.stage = .ended result := by
  obtain ⟨habsent, hspeaks⟩ := speaks_of_steps? hs₀ hnone hsteps id
  cases hr : s.run? id with
  | none =>
    rw [habsent hr] at hword
    cases hword
  | some r =>
    obtain ⟨result, hended⟩ := Run.hasEnded_eq_true_iff.1 ((hspeaks r hr).hasEnded hword)
    exact ⟨r, result, rfl, hended⟩

/-- After a run has said that it stopped, and all went well, nothing more is said of an attempt
that it announced. -/
theorem biography_of_stopped {config : Config} {sink : MessageSink} {text : String}
    {first last : List Stamped} {stop : Stamped} {id : Nat} {r : Run} {source : String}
    {words : List Event}
    (hsteps : (ofConfig config sink text : Service α).steps? actions =
      some (s, first ++ stop :: last))
    (hstop : stop.event = runEvent .engineStopped id) (hr : s.run? id = some r)
    (hended : r.stage = .ended (.ok ()))
    (hopens : biography g (first ++ stop :: last) = startEvent id g source :: words) :
    biography g last = [] := by
  obtain ⟨before, action, after, u, v, rfl, hbefore, haction, hafter⟩ := exists_of_sent hsteps
  have horigin : (ofConfig config sink text : Service α).Reachable := ⟨config, sink, text, .refl _⟩
  have hone : u.steps? [action] = some (v, [stop]) := by simp [steps?_cons, haction]
  have hv := steps?_append_eq_some hbefore hone
  have hreach : v.Reachable := ⟨config, sink, text, _, _, hv⟩
  -- at that moment the run has ended, with the result that it has later on
  have hword : runEvent .engineStopped id ∈ said id (first ++ [stop]) := by
    simp [said, hstop, runEvent]
  obtain ⟨r', result, hr', hended'⟩ := exists_ended_of_stopped horigin rfl hv hword
  obtain ⟨r'', hr'', hsame⟩ := Reaches.run_ended ⟨after, last, hafter⟩ hr' hended'
  cases hr.symm.trans hr''
  cases hended.symm.trans hsame
  -- so the announcement came before it
  have hquiet := (left_run_starts_nothing hreach hr' (by simp [Run.hasLeft, hended']) hafter).1
  rw [List.append_cons, biography_append] at hopens
  obtain ⟨acts, htold⟩ : ∃ acts, v.Told g acts (biography g (first ++ [stop])) :=
    ⟨_, told_of_steps? hv g⟩
  generalize biography g (first ++ [stop]) = bio at htold hopens
  cases htold with
  | unborn _ _ =>
    rw [List.nil_append] at hopens
    have hmem : startEvent id g source ∈ biography g last := hopens ▸ List.mem_cons_self
    obtain ⟨e, he, hevent⟩ := List.mem_map.1 (List.mem_filter.1 hmem).1
    have hround := hquiet e he
    rw [hevent] at hround
    simp [Event.isOfRound, startEvent, runEvent] at hround
  | announced _ hr₁ hs₁ =>
    obtain rfl := run_of_startEvent (List.cons.inj hopens).1
    cases hr'.symm.trans hr₁
    cases hended'.symm.trans hs₁
  | lived ha _ =>
    have hrun := run_of_startEvent (List.cons.inj hopens).1
    have hf := hreach.isFinished_of_closing hr' (by simp [Run.closing?, hended']) ha hrun
    exact hreach.biography_of_isFinished ha hf hafter

/-! ## The law -/

/-- All that is said of the attempt `g` in a history `actions` from `origin` to `s`, in which `sent`
was sent. -/
structure SaidOf (g : Generation) (origin : Service α) (actions : List (Action α)) (s : Service α)
    (sent : List Stamped) : Prop where
  /-- The run that got the number announces the attempt, once and before anything else is said of
  it, and all that is said of it carries the text of the announcement. If that has not happened
  yet, it does after two more steps of the run at most. -/
  opens : (biography g sent = [] ∧ ∃ r text, s.run? r.id = some r ∧
      ∃ n ≤ 2, s.SaysAfter n (.proceed r.id) g (startEvent r.id g text)) ∨
    ∃ id text words, biography g sent = startEvent id g text :: words ∧
      ∀ e ∈ words, e.kind ≠ .attemptStarting ∧ e.source = some text
  /-- As long as the attempt has not begun, it says nothing itself, -/
  waits : .begun ∉ origin.observe (act? g) actions →
    ∀ e ∈ biography g sent, e.kind = .attemptStarting
  /-- and if it is called off before it begins, it never does. -/
  calledOff {a : Attempt α} : s.attempt? g = some a → a.stage = .finished none →
    .begun ∉ origin.observe (act? g) actions ∧
      biography g sent = [startEvent a.run g a.source]
  /-- When it has begun and finished, it has told of the panic of its compiler, if there was one,
  and then how it ended, which goes by the answer of the compiler and the offer that it made. -/
  closes {a : Attempt α} : s.attempt? g = some a → a.isFinished = true →
    .begun ∈ origin.observe (act? g) actions → ∃ outcome rest how,
      origin.observe (act? g) actions = .begun :: .answered outcome :: rest ∧
      Attempt.Settles outcome rest how ∧
      biography g sent = startEvent a.run g a.source :: a.panics outcome ++ [a.lastEvent how]
  /-- It tells that it published only if the slot has taken an artifact of its number. -/
  published {e : Event} : e ∈ biography g sent → e.kind = .attemptPublished →
    ∃ artifact ∈ origin.observe accepted? actions, artifact.generation = g
  /-- If the slot has taken one, it has told so, or it does after three more steps at most. -/
  stored {artifact : Artifact α} : artifact ∈ origin.observe accepted? actions →
    artifact.generation = g → (∃ e ∈ biography g sent, e.kind = .attemptPublished) ∨
      ∃ a, s.attempt? g = some a ∧ a.isFinished = false ∧ ∃ n ≤ 3, ∃ succeeded,
        s.SaysAfter n (.finish g) g (a.lastEvent (.published succeeded))
  /-- The reason for which it is discarded. -/
  discarded {e : Event} : e ∈ biography g sent → e.kind = .attemptDiscarded →
    (e.reason = some "compiler_cancelled" ↔
      .answered (.refused .canceled) ∈ origin.observe (act? g) actions) ∧
    (e.reason = some "cancelled" ↔
      ∃ verdict, .offered true verdict ∈ origin.observe (act? g) actions) ∧
    (e.reason = some "superseded" ↔
      .answered (.refused .canceled) ∉ origin.observe (act? g) actions ∧
        ∀ verdict, .offered true verdict ∉ origin.observe (act? g) actions)
  /-- If the run that announced it has ended and all went well, the run has said so, and nothing
  was said of the attempt after that. -/
  stopped {id : Nat} {r : Run} {source : String} {words : List Event} :
    biography g sent = startEvent id g source :: words → s.run? id = some r →
    r.stage = .ended (.ok ()) → runEvent .engineStopped id ∈ sent.map (·.event) ∧
      ∀ first stop last, sent = first ++ stop :: last →
        stop.event = runEvent .engineStopped id → biography g last = []

/-- Whatever happens in a history, of each attempt whose number was handed out is said: its start,
once and first; then, if it begins, a panic of its compiler, if there is one, and at last how it
ended. Nobody else says anything of it. -/
theorem attempt_speaks_in_order {config : Config} {sink : MessageSink} {text : String}
    (hsteps : (ofConfig config sink text : Service α).steps? actions = some (s, sent))
    (hg : g ∈ (ofConfig config sink text : Service α).observe handedOut? actions) :
    SaidOf g (ofConfig config sink text) actions s sent := by
  have horigin : (ofConfig config sink text : Service α).Reachable :=
    ⟨config, sink, text, .refl _⟩
  have hs : s.Reachable := ⟨config, sink, text, actions, sent, hsteps⟩
  have htold := told_of_steps? hsteps g
  have hpublished := published_mem_iff (g := g) hsteps
  refine
    { opens := ?_
      waits := ?_
      calledOff := ?_
      closes := ?_
      published := ?_
      stored := ?_
      discarded := ?_
      stopped := ?_ }
  · refine htold.opens.imp_left fun ⟨hempty, hnone, hidle⟩ => ⟨hempty, ?_⟩
    rcases isTaken_of_mem_observe hsteps g hg with ⟨id, p, hp, rfl⟩ | ⟨a, ha⟩
    · obtain ⟨r, hr, hstage | hstage | hstage⟩ := exists_of_pledge? hp
      · exact ⟨r, _, hr, 2, Nat.le_refl 2, saysAfter_of_raising hr hstage⟩
      · exact ⟨r, _, hr, 1, by decide, saysAfter_of_announcing hr hstage⟩
      · exact absurd hstage (hidle r _ hr)
    · cases ha.symm.trans hnone
  · intro hnot e he
    rcases htold.of_mem he with hstart | ⟨a, words, -, hl, hword⟩
    · exact hstart
    · rw [(hl.of_not_begun hnot).1] at hword
      cases hword
  · intro a ha hstage
    obtain ⟨words, hl, hsaid⟩ := htold.of_attempt? ha
    obtain ⟨hacts, rfl⟩ := hl.of_calledOff hstage
    exact ⟨by simp [hacts], hsaid⟩
  · intro a ha hf hbegun
    obtain ⟨words, hl, hsaid⟩ := htold.of_attempt? ha
    obtain ⟨how, htells⟩ := hl.of_isFinished hf hbegun
    obtain ⟨outcome, rest, hsettles, hacts, rfl⟩ := hl.of_told htells
    exact ⟨outcome, rest, how, hacts, hsettles, hsaid⟩
  · intro e he hkind
    rcases htold.of_mem he with hstart | ⟨a, words, -, hl, hword⟩
    · cases hkind.symm.trans hstart
    · exact hpublished.1 (hl.published hword hkind)
  · intro artifact hacc hgeneration
    obtain ⟨cancelled, hoffered⟩ := hpublished.2 ⟨artifact, hacc, hgeneration⟩
    obtain ⟨a, words, ha, hl, hsaid⟩ := htold.of_act hoffered
    rcases hl.of_published hoffered with ⟨e, he, hkind⟩ | ⟨succeeded, huntold⟩
    · exact .inl ⟨e, hsaid ▸ List.mem_cons_of_mem _ he, hkind⟩
    · obtain ⟨n, hn, hsays⟩ := hs.saysAfter_of_untold ha huntold
      exact .inr ⟨a, ha, a.isFinished_of_untold? huntold, n, hn, succeeded, hsays⟩
  · intro e he hkind
    rcases htold.of_mem he with hstart | ⟨a, words, -, hl, hword⟩
    · cases hkind.symm.trans hstart
    · exact hl.discarded hword hkind
  · intro id r source words hopens hr hended
    refine ⟨?_, fun first stop last hsent hstop => ?_⟩
    · have hword := ((speaks_of_steps? horigin rfl hsteps id).2 r hr).mem_of_ended hended
      exact (List.mem_filter.1 hword).1
    · subst hsent
      exact biography_of_stopped hsteps hstop hr hended hopens

/-- The first attempt is displaced while it compiles, and its compiler panics. The second one is
called off before a worker takes it. The third one publishes, and the run is stopped. -/
def threeAttempts : List (Action Nat) :=
  [Action.start, Action.tick, Action.poll 1] ++ List.replicate 6 (Action.proceed 1) ++
    [Action.take 1, Action.edit "b", Action.tick, Action.poll 1] ++
    List.replicate 9 (Action.proceed 1) ++ [Action.edit "c", Action.tick, Action.poll 1] ++
    List.replicate 9 (Action.proceed 1) ++
    [Action.take 2, Action.compiled 1 (.panicked (.message "boom"))] ++
    List.replicate 6 (Action.finish 1) ++ [Action.take 3, Action.compiled 3 (.value 5)] ++
    List.replicate 5 (Action.finish 3) ++
    [Action.stop, Action.tellRun 0, Action.leave 1, Action.drained 1, Action.proceed 1]

theorem attempt_speaks_in_order_displaced : ∃ s : Service Nat, ∃ sent,
    (ofConfig {} {} "a" : Service Nat).steps? threeAttempts = some (s, sent) ∧
    (ofConfig {} {} "a" : Service Nat).observe handedOut? threeAttempts = [1, 2, 3] ∧
    (biography 1 sent).map (·.kind) = [.attemptStarting, .compilerPanicked, .attemptDiscarded] ∧
    (biography 2 sent).map (·.kind) = [.attemptStarting] ∧
    (biography 3 sent).map (·.kind) = [.attemptStarting, .attemptPublished] ∧
    ∀ g ∈ [1, 2, 3], SaidOf g (ofConfig {} {} "a") threeAttempts s sent := by
  have hrun : ((ofConfig {} {} "a" : Service Nat).steps? threeAttempts).map
      (fun (_, sent) => ((biography 1 sent).map (·.kind), (biography 2 sent).map (·.kind),
        (biography 3 sent).map (·.kind))) =
      some ([.attemptStarting, .compilerPanicked, .attemptDiscarded], [.attemptStarting],
        [.attemptStarting, .attemptPublished]) := by
    with_unfolding_all exact rfl
  have hnumbers : (ofConfig {} {} "a" : Service Nat).observe handedOut? threeAttempts =
      [1, 2, 3] := by
    with_unfolding_all exact rfl
  obtain ⟨⟨s, sent⟩, hsteps, hseen⟩ := Option.map_eq_some_iff.1 hrun
  obtain ⟨hfirst, hsecond, hthird⟩ : _ ∧ _ ∧ _ := by simpa only [Prod.mk.injEq] using hseen
  exact ⟨s, sent, hsteps, hnumbers, hfirst, hsecond, hthird,
    fun g hg => attempt_speaks_in_order hsteps (hnumbers ▸ hg)⟩

end Service

end CompileWatch
