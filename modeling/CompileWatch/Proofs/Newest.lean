import CompileWatch.Proofs.Numbering

/-!
# The newest attempt decides

From the moment the floor was raised for an attempt until it is raised for a newer one, the slot
holds what it held then or the artifact of that attempt. Which of the two is settled by what the
attempt itself does: what its compiler answers, and whether its token is cancelled when it makes its
offer. Nothing that older attempts do matters.
-/
namespace CompileWatch

/-- What an attempt does that matters to the slot. -/
inductive Attempt.Deed (α : Type) where
  /-- Its compiler comes back. -/
  | answered (outcome : Outcome α)
  /-- It offers its artifact, with its token cancelled or not. -/
  | offered (cancelled : Bool)

namespace Attempt

variable {α : Type}

/-- The artifact that the attempt `g` makes of the answer of its compiler, if there is one. -/
def artifactOf? (source : String) (g : Generation) : Outcome α → Option (Artifact α)
  | .value v => some (.compiled source g v)
  | .refused (.diagnostics ds) => some (.failed source g ds)
  | .refused .canceled => none
  | .panicked payload => some (.failed source g [.error ("compiler panicked: " ++ payload.text)])

/-- What comes into the slot by the deeds of the attempt `g`. -/
def contribution? (source : String) (g : Generation) : List (Deed α) → Option (Artifact α)
  | [.answered outcome, .offered false] => artifactOf? source g outcome
  | _ => none

/-- The deeds of an attempt that has come to a stage while it is the newest. -/
inductive Story (source : String) (g : Generation) : Stage α → List (Deed α) → Prop
  | queued : Story source g .queued []
  | compiling : Story source g .compiling []
  | calledOff : Story source g (.finished none) []
  | panicking (payload : PanicPayload) :
      Story source g (.panicking payload.text) [.answered (.panicked payload)]
  | sendingPanic (payload : PanicPayload) (event : Stamped) :
      Story source g (.sendingPanic payload.text event) [.answered (.panicked payload)]
  | offering {outcome : Outcome α} {artifact : Artifact α} :
      artifactOf? source g outcome = some artifact →
      Story source g (.offering artifact) [.answered outcome]
  | published {outcome : Outcome α} {artifact : Artifact α} {stage : Stage α} :
      artifactOf? source g outcome = some artifact →
      stage.conclusion? = some (.published artifact.succeeded) →
      Story source g stage [.answered outcome, .offered false]
  | cancelled {outcome : Outcome α} {artifact : Artifact α} {stage : Stage α} :
      artifactOf? source g outcome = some artifact →
      stage.conclusion? = some .cancelled →
      Story source g stage [.answered outcome, .offered true]
  | gaveUp {stage : Stage α} : stage.conclusion? = some .gaveUp →
      Story source g stage [.answered (.refused .canceled)]

/-- Where the answer of the compiler leads to. -/
theorem Story.of_answer (a : Attempt α) (outcome : Outcome α) :
    Story a.source a.generation (a.stageAfter outcome) [.answered outcome] := by
  cases outcome with
  | value v => exact .offering rfl
  | refused why =>
    cases why with
    | diagnostics ds => exact .offering rfl
    | canceled => exact .gaveUp rfl
  | panicked payload => exact .panicking payload

/-- Once it is settled how an attempt ends, its deeds are told. -/
theorem Story.conclusion {source : String} {g : Generation} {stage stage' : Stage α}
    {deeds : List (Deed α)} {how : Conclusion} (h : Story source g stage deeds)
    (hs : stage.conclusion? = some how) (hs' : stage'.conclusion? = some how) :
    Story source g stage' deeds := by
  have heq : stage.conclusion? = stage'.conclusion? := hs.trans hs'.symm
  cases h with
  | published ho hc => exact .published ho (heq ▸ hc)
  | cancelled ho hc => exact .cancelled ho (heq ▸ hc)
  | gaveUp hc => exact .gaveUp (heq ▸ hc)
  | _ => cases hs

end Attempt

namespace Service

variable {α : Type} {s t : Service α} {action : Action α} {sent : List Stamped}
  {source : String} {j : Generation} {deeds : List (Attempt.Deed α)}

/-! ## The deeds of one attempt -/

/-- What the attempt `g` does in an action that matters to the slot. -/
def deed? (g : Generation) (s : Service α) (action : Action α) : Option (Attempt.Deed α) :=
  (s.attempt? g).bind fun a =>
    match a.stage, action with
    | .compiling, .compiled k outcome => if k = g then some (.answered outcome) else none
    | .offering _, .finish k => if k = g then some (.offered a.cancelled) else none
    | _, _ => none

/-- The artifact that the attempt `g` offers in an action, and whether its token is cancelled
then. -/
def offer? (g : Generation) (s : Service α) (action : Action α) : Option (Artifact α × Bool) :=
  (s.attempt? g).bind fun a =>
    match a.stage, action with
    | .offering artifact, .finish k => if k = g then some (artifact, a.cancelled) else none
    | _, _ => none

/-- All that the attempt `g` does in a history that matters to the slot. -/
def story (s : Service α) (g : Generation) (actions : List (Action α)) :
    List (Attempt.Deed α) :=
  s.observe (deed? g) actions

theorem deed?_eq_none {g : Generation} (h : actor? action ≠ some g) : s.deed? g action = none := by
  unfold deed?
  cases s.attempt? g with
  | none => rfl
  | some a =>
    simp only [Option.bind_some]
    split
    · next k _ _ => exact if_neg fun hk => h (congrArg some hk)
    · next k _ => exact if_neg fun hk => h (congrArg some hk)
    · rfl

/-- The newest attempt is refused only if it is cancelled: what the slot holds is the work of
another attempt, and an older one. -/
theorem Numbered.verdict_newest (h : Numbered s) {a : Attempt α} {artifact : Artifact α}
    (ha : s.attempt? j = some a) (hs : a.stage = .offering artifact)
    (hnewest : s.slot.floor ≤ j) :
    s.slot.verdict artifact a.cancelled = if a.cancelled then .cancelled else .published := by
  cases hc : a.cancelled with
  | true => rfl
  | false =>
    have hg : artifact.generation = j := (h.offered ha hs).1
    have hstored : s.slot.stored < j := by
      refine Nat.lt_of_le_of_ne (Nat.le_trans h.stored_le_floor hnewest) fun heq => ?_
      have hpos := (h.attempt_le ha).1
      unfold Slot.stored at heq
      split at heq
      · subst heq
        exact absurd hpos (Nat.not_succ_le_zero 0)
      · next held hheld =>
        obtain ⟨b, succeeded, hb, hconclusion, -⟩ := h.held hheld
        rw [heq, ha] at hb
        cases hb
        rw [hs] at hconclusion
        cases hconclusion
    exact Slot.verdict_eq_published_iff.2 ⟨rfl, hg ▸ hnewest, hg ▸ hstored⟩

theorem deed?_eq {a : Attempt α} (ha : s.attempt? j = some a) :
    s.deed? j action =
      match a.stage, action with
      | .compiling, .compiled k outcome => if k = j then some (.answered outcome) else none
      | .offering _, .finish k => if k = j then some (.offered a.cancelled) else none
      | _, _ => none := by
  simp only [deed?, ha, Option.bind_some]

theorem offer?_eq_some_iff {artifact : Artifact α} {c : Bool} :
    s.offer? j action = some (artifact, c) ↔
      ∃ a, action = .finish j ∧ s.attempt? j = some a ∧ a.stage = .offering artifact ∧
        a.cancelled = c := by
  constructor
  · intro h
    obtain ⟨a, ha, hs⟩ := Option.bind_eq_some_iff.1 h
    split at hs
    · next artifact' k hstage =>
      simp only [Option.ite_none_right_eq_some, Option.some.injEq, Prod.mk.injEq] at hs
      obtain ⟨rfl, rfl, hc⟩ := hs
      exact ⟨a, rfl, ha, hstage, hc⟩
    · cases hs
  · rintro ⟨a, rfl, ha, hstage, rfl⟩
    simp [offer?, ha, hstage]

/-- An offer is a deed; another deed is the answer of the compiler. -/
theorem deed?_of_offer? {artifact : Artifact α} {c : Bool}
    (h : s.offer? j action = some (artifact, c)) : s.deed? j action = some (.offered c) := by
  obtain ⟨a, rfl, ha, hstage, rfl⟩ := offer?_eq_some_iff.1 h
  simp [deed?_eq ha, hstage]

theorem exists_answered_of_deed? {deed : Attempt.Deed α} (hdeed : s.deed? j action = some deed)
    (hoffer : s.offer? j action = none) :
    ∃ a outcome, s.attempt? j = some a ∧ a.stage = .compiling ∧ deed = .answered outcome := by
  obtain ⟨a, ha, hs⟩ := Option.bind_eq_some_iff.1 hdeed
  split at hs
  · next hstage =>
    simp only [Option.ite_none_right_eq_some, Option.some.injEq] at hs
    exact ⟨a, _, ha, hstage, hs.2.symm⟩
  · next hstage => simp_all [offer?]
  · cases hs

/-- While `j` is the newest number, the slot takes what the attempt `j` offers uncancelled, and
nothing else. -/
theorem Numbered.accepted?_newest (h : Numbered s) (hfloor : s.slot.floor = j) :
    s.accepted? action =
      match s.offer? j action with
      | some (artifact, false) => some artifact
      | _ => none := by
  cases hoffer : s.offer? j action with
  | none =>
    refine Option.eq_none_iff_forall_ne_some.2 fun artifact hacc => ?_
    obtain ⟨g, a, rfl, ha, hs, hv⟩ := accepted?_eq_some_iff.1 hacc
    have hg : g = j := by
      have hle : g ≤ j := hfloor ▸ (h.attempt_le ha).2
      have hge : j ≤ artifact.generation := hfloor ▸ (Slot.verdict_eq_published_iff.1 hv).2.1
      rw [(h.offered ha hs).1] at hge
      exact Nat.le_antisymm hle hge
    subst hg
    rw [offer?_eq_some_iff.2 ⟨a, rfl, ha, hs, rfl⟩] at hoffer
    cases hoffer
  | some offer =>
    obtain ⟨artifact, c⟩ := offer
    obtain ⟨a, rfl, ha, hs, rfl⟩ := offer?_eq_some_iff.1 hoffer
    have hverdict := h.verdict_newest ha hs (Nat.le_of_eq hfloor)
    cases hc : a.cancelled with
    | true =>
      refine Option.eq_none_iff_forall_ne_some.2 fun artifact' hacc => ?_
      obtain ⟨g, b, hg, hb, hs', hv⟩ := accepted?_eq_some_iff.1 hacc
      cases hg
      rw [ha] at hb
      cases hb
      rw [hc] at hv
      cases hv
    | false =>
      refine accepted?_eq_some_iff.2 ⟨j, a, rfl, ha, hs, ?_⟩
      simpa [hc] using hverdict

/-- A step of the newest attempt of its own adds to its story. -/
theorem AttemptStep.story {a a' : Attempt α} (h : AttemptStep s a action a' t sent)
    (hs : Numbered s) (ha : s.attempt? j = some a) (hnewest : s.slot.floor ≤ j)
    (hstory : Attempt.Story a.source j a.stage deeds) :
    Attempt.Story a.source j a'.stage (deeds ++ (s.deed? j action).toList) := by
  have hg : a.generation = j := generation_of_attempt? ha
  subst hg
  rw [deed?_eq ha]
  cases h with
  | take hstage =>
    rw [hstage] at hstory ⊢
    cases hstory with
    | queued =>
      unfold taken
      split
      · exact .calledOff
      · exact .compiling
    | published _ hc | cancelled _ hc | gaveUp hc => cases hc
  | cancelItself hstage =>
    rw [hstage] at hstory ⊢
    simpa [hstage] using hstory
  | @answer outcome hstage =>
    rw [hstage] at hstory ⊢
    cases hstory with
    | compiling => simpa [answered] using Attempt.Story.of_answer a outcome
    | published _ hc | cancelled _ hc | gaveUp hc => cases hc
  | @move move hmove =>
    cases Attempt.MoveStep.of_next? hmove with
    | stampPanic hstage =>
      rw [hstage] at hstory ⊢
      cases hstory with
      | panicking payload => exact .sendingPanic payload _
      | published _ hc | cancelled _ hc | gaveUp hc => cases hc
    | sendPanic hstage =>
      rw [hstage] at hstory ⊢
      cases hstory with
      | sendingPanic payload event => exact .offering rfl
      | published _ hc | cancelled _ hc | gaveUp hc => cases hc
    | accepted hstage hv =>
      have hcancelled : a.cancelled = false := (Slot.verdict_eq_published_iff.1 hv).1
      rw [hstage] at hstory ⊢
      cases hstory with
      | offering ho => simpa [hcancelled] using Attempt.Story.published ho rfl
      | published _ hc | cancelled _ hc | gaveUp hc => cases hc
    | refused hstage hv =>
      have hverdict := hs.verdict_newest ha hstage hnewest
      have hcancelled : a.cancelled = true := by
        cases hc : a.cancelled with
        | true => rfl
        | false => exact absurd (by simpa [hc] using hverdict) hv
      rw [hstage] at hstory ⊢
      cases hstory with
      | offering ho =>
        rw [hverdict]
        simpa [hcancelled] using Attempt.Story.cancelled ho rfl
      | published _ hc | cancelled _ hc | gaveUp hc => cases hc
    | notify hstage | stampEnd hstage | sendEnd hstage | leave hstage =>
      rw [hstage] at hstory ⊢
      simpa using hstory.conclusion rfl rfl

/-! ## From the raised floor on -/

/-- A number to which the floor was raised stays pledged until its attempt is launched. -/
theorem NumberStep.pledged_or_launched (h : NumberStep s t) (hs : Numbered s) {id : Nat}
    (hp : s.pledge? id = some ⟨source, j, true⟩) :
    t.pledge? id = some ⟨source, j, true⟩ ∨
      t.attempt? j = some { generation := j, run := id, source } := by
  cases h with
  | quiet hpledge _ _ _ => exact .inl (by rw [hpledge, hp])
  | @number id' _ hnone hpledge _ _ _ =>
    have hne : id ≠ id' := by
      rintro rfl
      rw [hp] at hnone
      cases hnone
    exact .inl (by rw [hpledge, if_neg hne, hp])
  | @raise id' _ _ hold hpledge _ _ _ =>
    have hne : id ≠ id' := by
      rintro rfl
      rw [hp] at hold
      cases hold
    exact .inl (by rw [hpledge, if_neg hne, hp])
  | @launch id' text g hold hpledge _ _ hthere hattempt =>
    by_cases hid : id = id'
    · subst hid
      rw [hp] at hold
      cases hold
      have hunused : s.attempt? j = none := hs.pledge_unused hp
      rcases hattempt j with hrel | ⟨-, -, hnew⟩
      · rw [hunused] at hrel
        exact absurd (eq_none_of_rel hrel) hthere
      · exact .inr hnew
    · exact .inl (by rw [hpledge, if_neg hid, hp])
  | publish _ _ _ hpledge _ _ _ _ => exact .inl (by rw [hpledge, hp])

/-- The attempt `j` and its deeds since the floor was raised for it: it is yet to be launched, or it
is there and has come as far as its story says. -/
def Fits (s : Service α) (source : String) (j : Generation)
    (deeds : List (Attempt.Deed α)) : Prop :=
  (∃ id, s.pledge? id = some ⟨source, j, true⟩) ∧ deeds = [] ∨
    ∃ a, s.attempt? j = some a ∧ a.source = source ∧ Attempt.Story source j a.stage deeds

theorem Fits.le_floor (h : s.Fits source j deeds) (hs : Numbered s) : j ≤ s.slot.floor := by
  rcases h with ⟨⟨id, hp⟩, -⟩ | ⟨a, ha, -, -⟩
  · exact hs.pledge_raised hp rfl
  · exact (hs.attempt_le ha).2

/-- Every step of the service adds to the story what the attempt does in it. -/
theorem Fits.step (h : s.Fits source j deeds) (hs : Numbered s) (hnewest : s.slot.floor ≤ j)
    (hstep : Step s action t sent) : t.Fits source j (deeds ++ (s.deed? j action).toList) := by
  rcases h with ⟨⟨id, hp⟩, rfl⟩ | ⟨a, ha, rfl, hstory⟩
  · have hnone : s.deed? j action = none := by
      have hunused : s.attempt? j = none := hs.pledge_unused hp
      simp [deed?, hunused]
    rw [hnone]
    rcases hstep.numberStep.pledged_or_launched hs hp with hp | ha
    · exact .inl ⟨⟨id, hp⟩, rfl⟩
    · exact .inr ⟨_, ha, rfl, .queued⟩
  · rcases hstep.own_or_touch ha with ⟨a', hown, ha'⟩ | ⟨a', ha', htouch, hactor⟩
    · have hsource : a'.source = a.source := hown.change.identity.2.2
      exact .inr ⟨a', ha', hsource, hown.story hs ha hnewest hstory⟩
    · obtain ⟨-, -, hsource, hstage⟩ := htouch.kept
      rw [deed?_eq_none hactor]
      refine .inr ⟨a', ha', hsource, ?_⟩
      rw [hstage]
      simpa using hstory

/-- What is offered is what the answer of the compiler makes. -/
theorem Fits.of_offer? (h : s.Fits source j deeds) (hs : Numbered s) {artifact : Artifact α}
    {c : Bool} (hoffer : s.offer? j action = some (artifact, c)) :
    ∃ outcome, deeds = [.answered outcome] ∧
      Attempt.artifactOf? source j outcome = some artifact := by
  obtain ⟨a, -, ha, hstage, -⟩ := offer?_eq_some_iff.1 hoffer
  rcases h with ⟨⟨id, hp⟩, -⟩ | ⟨b, hb, -, hstory⟩
  · have hunused : s.attempt? j = none := hs.pledge_unused hp
    rw [ha] at hunused
    cases hunused
  · rw [ha] at hb
    cases hb
    rw [hstage] at hstory
    cases hstory with
    | offering ho => exact ⟨_, rfl, ho⟩
    | published _ hc | cancelled _ hc | gaveUp hc => cases hc

theorem Fits.of_compiling (h : s.Fits source j deeds) {a : Attempt α}
    (ha : s.attempt? j = some a) (hstage : a.stage = .compiling) : deeds = [] := by
  rcases h with ⟨-, hdeeds⟩ | ⟨b, hb, -, hstory⟩
  · exact hdeeds
  · rw [ha] at hb
    cases hb
    rw [hstage] at hstory
    cases hstory with
    | compiling => rfl
    | published _ hc | cancelled _ hc | gaveUp hc => cases hc

/-- The slot changes in a step as the deeds of the newest attempt say. -/
theorem Fits.latest (h : s.Fits source j deeds) (hs : Numbered s) (hnewest : s.slot.floor ≤ j)
    (hstep : Step s action t sent) {held : Option (Artifact α)}
    (hlatest : s.slot.latest = (Attempt.contribution? source j deeds).or held) :
    t.slot.latest =
      (Attempt.contribution? source j (deeds ++ (s.deed? j action).toList)).or held := by
  have hfloor : s.slot.floor = j := Nat.le_antisymm hnewest (h.le_floor hs)
  rw [hstep.slot.1, hs.accepted?_newest hfloor]
  cases hoffer : s.offer? j action with
  | some offer =>
    obtain ⟨artifact, c⟩ := offer
    obtain ⟨outcome, rfl, hartifact⟩ := h.of_offer? hs hoffer
    rw [deed?_of_offer? hoffer]
    cases c with
    | false => simp [Attempt.contribution?, hartifact]
    | true => simpa [Attempt.contribution?] using hlatest
  | none =>
    rw [Option.none_or, hlatest]
    cases hdeed : s.deed? j action with
    | none => simp
    | some deed =>
      obtain ⟨a, outcome, ha, hstage, rfl⟩ := exists_answered_of_deed? hdeed hoffer
      rw [h.of_compiling ha hstage]
      rfl

/-- Right after the floor was raised for it, an attempt has done nothing. -/
theorem fits_of_raised? (hstep : s.step? action = some (t, sent))
    (hraised : s.raised? action = some (source, j)) : t.Fits source j [] := by
  obtain ⟨id, r, rfl, hr, hstage⟩ := raised?_eq_some_iff.1 hraised
  obtain rfl : r.id = id := id_of_run? hr
  simp only [step?, hr, Option.bind_some, proceed?, hstage, Option.some.injEq, Prod.mk.injEq]
    at hstep
  obtain ⟨rfl, -⟩ := hstep
  refine .inl ⟨⟨r.id, ?_⟩, rfl⟩
  simp [pledge?, run?_moveRun, hr, Run.pledge?]

/-- Along a history in which `j` stays the newest number, the slot goes by the deeds of the
attempt `j`. -/
theorem Numbered.fits_story (hs : Numbered s) (hfits : s.Fits source j [])
    {actions : List (Action α)} (hsteps : s.steps? actions = some (t, sent))
    (hnewest : t.slot.floor ≤ j) :
    t.Fits source j (s.story j actions) ∧
      t.slot.latest =
        (Attempt.contribution? source j (s.story j actions)).or s.slot.latest := by
  refine observe_induct (motive := fun u seen => u.Fits source j seen ∧
    u.slot.latest = (Attempt.contribution? source j seen).or s.slot.latest)
    (fun {u v a told seen} hsu hvt hstep hu => ?_) hsteps ⟨hfits, rfl⟩
  have hnumbered := hs.reaches hsu
  have hle : u.slot.floor ≤ j :=
    Nat.le_trans ((Reaches.of_step hstep).trans hvt).floor_le_floor hnewest
  have hcases := Step.of_step? hstep
  exact ⟨hu.1.step hnumbered hle hcases, hu.1.latest hnumbered hle hcases hu.2⟩

/-- How the newest attempt has ended when it is finished. -/
theorem Fits.of_finished (h : s.Fits source j deeds) (hs : Numbered s) {a : Attempt α}
    {how : Option Attempt.Conclusion} (ha : s.attempt? j = some a)
    (hstage : a.stage = .finished how) :
    how = none ∧ deeds = [] ∨
      how = some .gaveUp ∧ deeds = [.answered (.refused .canceled)] ∨
      ∃ outcome artifact cancelled, outcome ≠ .refused .canceled ∧
        Attempt.artifactOf? source j outcome = some artifact ∧
        deeds = [.answered outcome, .offered cancelled] ∧
        how = some (if cancelled then .cancelled else .published artifact.succeeded) := by
  have hanswer {outcome : Outcome α} {artifact : Artifact α}
      (ho : Attempt.artifactOf? source j outcome = some artifact) :
      outcome ≠ .refused .canceled := by
    rintro rfl
    cases ho
  rcases h with ⟨⟨id, hp⟩, -⟩ | ⟨b, hb, -, hstory⟩
  · have hunused : s.attempt? j = none := hs.pledge_unused hp
    rw [ha] at hunused
    cases hunused
  · rw [ha] at hb
    cases hb
    rw [hstage] at hstory
    cases hstory with
    | calledOff => exact .inl ⟨rfl, rfl⟩
    | published ho hc => exact .inr (.inr ⟨_, _, false, hanswer ho, ho, rfl, hc⟩)
    | cancelled ho hc => exact .inr (.inr ⟨_, _, true, hanswer ho, ho, rfl, hc⟩)
    | gaveUp hc => exact .inr (.inl ⟨hc, rfl⟩)

/-- From the moment the floor was raised for the attempt `j`, as long as it was not raised beyond
`j`: the slot holds what it held then or the artifact of `j`, and the deeds of `j` say which. It
changes in no other step than the offer of `j`, which is taken unless `j` is cancelled at that
moment and is never refused as superseded. When `j` is finished, either it was called off before it
began, or its compiler gave up, or it has made that offer. Any other history from that moment on in
which `j` does the same, whatever the older attempts do, ends with the same in the slot. -/
theorem newest_alone_decides {s₀ : Service α} {actions : List (Action α)} {more : List Stamped}
    (hs₀ : s₀.Reachable) (hraise : s₀.step? action = some (s, sent))
    (hraised : s₀.raised? action = some (source, j))
    (hsteps : s.steps? actions = some (t, more)) (hnewest : t.slot.floor ≤ j) :
    t.slot.latest =
      (Attempt.contribution? source j (s.story j actions)).or s₀.slot.latest ∧
    (∀ next u told, t.step? next = some (u, told) →
      match t.offer? j next with
      | none => u.slot.latest = t.slot.latest
      | some (artifact, cancelled) =>
        (∃ outcome, s.story j actions = [.answered outcome] ∧
          Attempt.artifactOf? source j outcome = some artifact) ∧
        t.slot.verdict artifact cancelled = (if cancelled then .cancelled else .published) ∧
        u.slot.latest = if cancelled then t.slot.latest else some artifact) ∧
    (∀ a how, t.attempt? j = some a → a.stage = .finished how →
      how = none ∧ s.story j actions = [] ∨
      how = some .gaveUp ∧ s.story j actions = [.answered (.refused .canceled)] ∨
      ∃ outcome artifact cancelled, outcome ≠ .refused .canceled ∧
        Attempt.artifactOf? source j outcome = some artifact ∧
        s.story j actions = [.answered outcome, .offered cancelled] ∧
        how = some (if cancelled then .cancelled else .published artifact.succeeded)) ∧
    (∀ others t' more', s.steps? others = some (t', more') → t'.slot.floor ≤ j →
      s.story j others = s.story j actions → t'.slot.latest = t.slot.latest) := by
  have hs : Numbered s := (hs₀.step hraise).numbered
  have hfits : s.Fits source j [] := fits_of_raised? hraise hraised
  have hsame : s.slot.latest = s₀.slot.latest := by
    obtain ⟨id, r, rfl, -⟩ := raised?_eq_some_iff.1 hraised
    simpa [accepted?] using (Step.of_step? hraise).slot.1
  obtain ⟨hend, hlatest⟩ := hs.fits_story hfits hsteps hnewest
  have ht : Numbered t := hs.reaches ⟨actions, more, hsteps⟩
  refine ⟨hsame ▸ hlatest, fun next u told hnext => ?_,
    fun a how ha hstage => hend.of_finished ht ha hstage,
    fun others t' more' hothers hnewest' hstory => ?_⟩
  · have hfloor : t.slot.floor = j := Nat.le_antisymm hnewest (hend.le_floor ht)
    have hchange := (Step.of_step? hnext).slot.1
    rw [ht.accepted?_newest hfloor] at hchange
    cases hoffer : t.offer? j next with
    | none => simpa [hoffer] using hchange
    | some offer =>
      obtain ⟨artifact, cancelled⟩ := offer
      obtain ⟨a, -, ha, hstage, rfl⟩ := offer?_eq_some_iff.1 hoffer
      refine ⟨hend.of_offer? ht hoffer, ht.verdict_newest ha hstage hnewest, ?_⟩
      rw [hchange, hoffer]
      cases a.cancelled <;> rfl
  · rw [(hs.fits_story hfits hothers hnewest').2, hlatest, hstory]

/-- The first attempt is displaced while it compiles, and still makes its offer. The second one
panics, and what the slot holds in the end is the report of that. -/
theorem newest_alone_decides_displaced : ∃ s₀ s t : Service Nat, ∃ sent more, s₀.Reachable ∧
    s₀.step? (.proceed 1) = some (s, sent) ∧ s₀.raised? (.proceed 1) = some ("b", 2) ∧
    s.steps? ([.proceed 1, .proceed 1, .take 2, .compiled 1 (.value 5), .finish 1,
      .compiled 2 (.panicked .other), .finish 2, .finish 2, .finish 2]) = some (t, more) ∧
    t.slot.floor ≤ 2 ∧ (t.attempt? 1).map (·.isFinished) = some false ∧
    t.slot.latest = some (.failed "b" 2 [.error "compiler panicked: unknown panic"]) := by
  have hs₀ : @Reachable Nat _ := ⟨{}, {}, "a", [.start, .tick, .poll 1] ++
    List.replicate 6 (.proceed 1) ++ [.take 1, .edit "b", .tick, .poll 1] ++
    List.replicate 6 (.proceed 1), _, rfl⟩
  refine ⟨_, _, _, _, _, hs₀, rfl, rfl, rfl, Nat.le_refl _, rfl, ?_⟩
  exact (@newest_alone_decides Nat _ _ (.proceed 1) _ "b" 2 _ [.proceed 1, .proceed 1, .take 2,
    .compiled 1 (.value 5), .finish 1, .compiled 2 (.panicked .other), .finish 2, .finish 2,
    .finish 2] _ hs₀ rfl rfl rfl (by decide)).1

end Service

end CompileWatch
