import CompileWatch.Attempt.Solo
import CompileWatch.Proofs.Biography
import CompileWatch.Proofs.Provenance

/-!
# An attempt from beginning to end

An attempt always comes to an end, whatever its compiler does. `Course` tells how the two phases of
the compiler go, and `Account.Follows` what the attempt makes of that: what it stores in the slot,
or that it leaves the slot as it was, how it ends, and the events in which it says so.
-/
namespace CompileWatch

/-! ## The course of a compile -/

/-- How a compile of the text goes, with a token that is cancelled beforehand or not: whether the
second phase is entered, what the compile comes to, and whether the token is cancelled afterwards.
A cancellation in the course of a phase counts as that phase's own, whoever it comes from. -/
inductive Compiler.Course {β α : Type} (c : Compiler β α) (source : String) (cancelled : Bool) :
    (entered : Bool) → (outcome : Outcome α) → (after : Bool) → Prop
  | refused {why : CompileError} {first : Bool} :
      c.parse source cancelled = ⟨.refused why, first⟩ →
      Course c source cancelled false (.refused why) (cancelled || first)
  | panicked {payload : PanicPayload} {first : Bool} :
      c.parse source cancelled = ⟨.panicked payload, first⟩ →
      Course c source cancelled false (.panicked payload) (cancelled || first)
  | compiled {parsed : β} {outcome : Outcome α} {first second : Bool} :
      c.parse source cancelled = ⟨.value parsed, first⟩ →
      c.compile parsed (cancelled || first) = ⟨outcome, second⟩ →
      Course c source cancelled true outcome (cancelled || first || second)

namespace Compiler

variable {α β : Type} {c : Compiler β α} {source : String} {cancelled entered after : Bool}
  {outcome : Outcome α}

theorem course_run (c : Compiler β α) (source : String) (cancelled : Bool) :
    c.Course source cancelled (c.run source cancelled).compileCalled
      (c.run source cancelled).outcome (c.run source cancelled).cancelled := by
  rcases hparse : c.parse source cancelled with ⟨outcome, first⟩
  unfold run
  rw [hparse]
  cases outcome with
  | value parsed => exact .compiled hparse rfl
  | refused why => exact .refused hparse
  | panicked payload => exact .panicked hparse

/-- The second phase is entered exactly if the first one gave a value. -/
theorem Course.entered_iff (h : c.Course source cancelled entered outcome after) :
    entered = true ↔ ∃ parsed, (c.parse source cancelled).outcome = .value parsed := by
  cases h with
  | refused hparse | panicked hparse => simp [hparse]
  | compiled hparse _ => simp [hparse]

end Compiler

namespace Attempt

variable {α β : Type} {a : Attempt α} {slot : Slot α} {artifact : Artifact α}
  {how : Conclusion}

/-! ## The way to the end -/

/-- The attempt `g` of `source` when its compiler has come back, with a token that is cancelled or
not. -/
def begun (g : Generation) (source : String) (cancelled : Bool) : Attempt α :=
  { generation := g, run := 0, source, cancelled }

/-- The attempt when it is over. -/
def concluded (a : Attempt α) (how : Conclusion) : Attempt α :=
  { a with stage := .finished (some how) }

theorem finish_of_next? (n : Nat) {move : Move α} (h : a.next? 0 slot = some move) :
    finish (n + 1) slot a = ((finish n move.slot move.attempt).1,
      (finish n move.slot move.attempt).2.1,
      (move.sent.map (·.event)).toList ++ (finish n move.slot move.attempt).2.2) := by
  rw [finish, h]

theorem finish_concluded (n : Nat) (slot : Slot α) (a : Attempt α) (how : Conclusion) :
    finish n slot (a.concluded how) = (a.concluded how, slot, []) := by
  cases n <;> rfl

theorem finish_concluding (n : Nat) (hs : a.stage = .concluding how) :
    finish (n + 3) slot a = (a.concluded how, slot, [a.lastEvent how]) := by
  have hmake : a.next? 0 slot = some
      { attempt := { a with stage := .sending how ⟨0, a.lastEvent how⟩ }
        slot, stamps := true } := by
    simp [next?, hs]
  have hsend : Attempt.next? 0 slot { a with stage := .sending how ⟨0, a.lastEvent how⟩ } = some
      { attempt := { a with stage := .leaving how }
        slot, sent := some ⟨0, a.lastEvent how⟩ } := rfl
  have hleave : Attempt.next? 0 slot { a with stage := .leaving how } = some
      { attempt := a.concluded how, slot } := rfl
  rw [finish_of_next? (n + 2) hmake, finish_of_next? (n + 1) hsend, finish_of_next? n hleave,
    finish_concluded]
  rfl

/-- The slot settles what an offer comes to, and only an offer that it takes changes it. -/
theorem finish_offering (n : Nat) (hs : a.stage = .offering artifact)
    (hhow : .ofOffer artifact.succeeded (slot.verdict artifact a.cancelled) = how) :
    finish (n + 5) slot a =
      (a.concluded how, (slot.publish artifact a.cancelled).2, [a.lastEvent how]) := by
  subst hhow
  cases hv : slot.verdict artifact a.cancelled with
  | published =>
    have hpublish := Slot.publish_of_published hv
    have hoffer : a.next? 0 slot = some
        { attempt := { a with stage := .stored artifact.succeeded }
          slot := { slot with latest := some artifact } } := by simp [next?, hs, hpublish]
    have hnotify : Attempt.next? 0 { slot with latest := some artifact }
        { a with stage := .stored artifact.succeeded } = some
          { attempt := { a with stage := .concluding (.published artifact.succeeded) }
            slot := { slot with latest := some artifact }, notifies := true } := rfl
    rw [finish_of_next? (n + 4) hoffer, finish_of_next? (n + 3) hnotify, finish_concluding n rfl,
      hpublish]
    rfl
  | cancelled | superseded =>
    have hrefused : slot.verdict artifact a.cancelled ≠ .published := by simp [hv]
    have hpublish := Slot.publish_of_refused hrefused
    have hoffer : a.next? 0 slot = some
        { attempt := { a with
            stage := .concluding (.ofOffer artifact.succeeded (slot.verdict artifact a.cancelled)) }
          slot } := by simp [next?, hs, hpublish, hv]
    rw [finish_of_next? (n + 4) hoffer, finish_concluding (n + 1) rfl, hpublish, hv]
    rfl

/-- How an attempt ends at a slot when its compiler has come back. -/
def conclusionAt (slot : Slot α) (a : Attempt α) (outcome : Outcome α) : Conclusion :=
  match artifactOf? a.source a.generation outcome with
  | none => .gaveUp
  | some artifact => .ofOffer artifact.succeeded (slot.verdict artifact a.cancelled)

/-- The slot after an attempt whose compiler has come back. -/
def slotAfter (slot : Slot α) (a : Attempt α) (outcome : Outcome α) : Slot α :=
  match artifactOf? a.source a.generation outcome with
  | none => slot
  | some artifact => (slot.publish artifact a.cancelled).2

/-- From the answer of its compiler an attempt comes to its end, and says on its way how. -/
theorem finish_stageAfter (slot : Slot α) (a : Attempt α) (outcome : Outcome α) :
    finish longestTail slot { a with stage := a.stageAfter outcome } =
      (a.concluded (conclusionAt slot a outcome), slotAfter slot a outcome,
        a.panics outcome ++ [a.lastEvent (conclusionAt slot a outcome)]) := by
  cases outcome with
  | value v => exact finish_offering (a := { a with stage := _ }) 2 rfl rfl
  | refused why =>
    cases why with
    | diagnostics ds => exact finish_offering (a := { a with stage := _ }) 2 rfl rfl
    | canceled => exact finish_concluding (a := { a with stage := _ }) 4 rfl
  | panicked payload =>
    -- the panic is told first, in two steps
    have hmake : Attempt.next? 0 slot { a with stage := .panicking payload.text } = some
        { attempt := { a with
            stage := .sendingPanic payload.text ⟨0, a.panicEvent payload.text⟩ }
          slot, stamps := true } := rfl
    have hsend : Attempt.next? 0 slot { a with
        stage := .sendingPanic payload.text ⟨0, a.panicEvent payload.text⟩ } = some
          { attempt := { a with stage := .offering (a.panicArtifact payload.text) }
            slot, sent := some ⟨0, a.panicEvent payload.text⟩ } := rfl
    show finish 7 slot { a with stage := .panicking payload.text } = _
    rw [finish_of_next? 6 hmake, finish_of_next? 5 hsend, finish_offering 0 rfl rfl]
    rfl

/-- What there is to tell of an attempt whose compiler has come back. -/
def accountOf (slot : Slot α) (a : Attempt α) (outcome : Outcome α) (compileCalled : Bool) :
    Account α where
  conclusion := some (conclusionAt slot a outcome)
  slot := slotAfter slot a outcome
  events := a.panics outcome ++ [a.lastEvent (conclusionAt slot a outcome)]
  compileCalled := compileCalled

theorem solo_eq (c : Compiler β α) (slot : Slot α) (g : Generation) (source : String)
    (cancelled : Bool) :
    solo c slot g source cancelled =
      accountOf slot (begun g source (c.run source cancelled).cancelled)
        (c.run source cancelled).outcome (c.run source cancelled).compileCalled := by
  have hend := finish_stageAfter slot (begun g source (c.run source cancelled).cancelled)
    (c.run source cancelled).outcome
  simp only [begun] at hend
  simp only [solo, hend]
  rfl

/-! ## What follows from the course of the compile -/

/-- How the outcome of an attempt, the kind of its last event and the reason in it follow from what
its compile has come to and from the token at the time of the offer. -/
inductive Ending : (outcome : Outcome α) → (cancelled : Bool) → PublishOutcome → EventKind →
    (reason : String) → Prop
  | ok {v : α} : Ending (.value v) false .published .attemptPublished "ok"
  | diagnosed {ds : List Diagnostic} :
      Ending (.refused (.diagnostics ds)) false .published .attemptPublished "diagnostics"
  | panicked {payload : PanicPayload} :
      Ending (.panicked payload) false .published .attemptPublished "diagnostics"
  | gaveUp {cancelled : Bool} :
      Ending (.refused .canceled) cancelled .cancelled .attemptDiscarded "compiler_cancelled"
  | cancelled {outcome : Outcome α} : outcome ≠ .refused .canceled →
      Ending outcome true .cancelled .attemptDiscarded "cancelled"
  | superseded {outcome : Outcome α} : outcome ≠ .refused .canceled →
      Ending outcome false .superseded .attemptDiscarded "superseded"

theorem outcome_ofOffer (succeeded : Bool) (verdict : PublishOutcome) :
    (Conclusion.ofOffer succeeded verdict).outcome = verdict := by
  cases verdict <;> rfl

theorem exists_artifactOf? {outcome : Outcome α} (source : String) (g : Generation)
    (h : outcome ≠ .refused .canceled) : ∃ artifact : Artifact α,
      artifactOf? source g outcome = some artifact ∧ artifact.source = source ∧
        artifact.generation = g := by
  cases outcome with
  | value v => exact ⟨_, rfl, rfl, rfl⟩
  | refused why =>
    cases why with
    | diagnostics ds =>
      exact ⟨_, rfl, Artifact.source_failed source g ds, Artifact.generation_failed source g ds⟩
    | canceled => exact absurd rfl h
  | panicked payload => exact ⟨_, rfl, rfl, rfl⟩

theorem ending_ofOffer {outcome : Outcome α} {succeeded : Bool}
    (hwhy : outcome ≠ .refused .canceled)
    (htaken : Ending outcome false .published .attemptPublished
      (Conclusion.published succeeded).reason)
    (slot : Slot α) (artifact : Artifact α) (cancelled : Bool) :
    Ending outcome cancelled
      (Conclusion.ofOffer succeeded (slot.verdict artifact cancelled)).outcome
      (Conclusion.ofOffer succeeded (slot.verdict artifact cancelled)).kind
      (Conclusion.ofOffer succeeded (slot.verdict artifact cancelled)).reason := by
  cases cancelled with
  | true =>
    rw [Slot.verdict_eq_cancelled_iff.2 rfl]
    exact .cancelled hwhy
  | false =>
    cases hv : slot.verdict artifact false with
    | published => exact htaken
    | cancelled => exact absurd (Slot.verdict_eq_cancelled_iff.1 hv) Bool.noConfusion
    | superseded => exact .superseded hwhy

theorem ending_conclusionAt (slot : Slot α) (a : Attempt α) (outcome : Outcome α) :
    Ending outcome a.cancelled (conclusionAt slot a outcome).outcome
      (conclusionAt slot a outcome).kind (conclusionAt slot a outcome).reason := by
  cases outcome with
  | value v => exact ending_ofOffer (by simp) .ok slot _ a.cancelled
  | refused why =>
    cases why with
    | diagnostics ds => cases ds <;> exact ending_ofOffer (by simp) .diagnosed slot _ a.cancelled
    | canceled => exact .gaveUp
  | panicked payload => exact ending_ofOffer (by simp) .panicked slot _ a.cancelled

/-- What an attempt that offers an artifact comes to is the verdict of the slot on it. -/
theorem conclusionAt_of_artifact (slot : Slot α) {outcome : Outcome α}
    (h : artifactOf? a.source a.generation outcome = some artifact) :
    (conclusionAt slot a outcome).outcome = slot.verdict artifact a.cancelled ∧
      slotAfter slot a outcome = (slot.publish artifact a.cancelled).2 := by
  simp only [conclusionAt, slotAfter, h, outcome_ofOffer, and_self]

/-- How the attempt ended, as the slot calls it. -/
def Account.outcome? (account : Account α) : Option PublishOutcome :=
  account.conclusion.map (·.outcome)

/-- The newest attempt gets into the slot what it has made, if its token is not cancelled. -/
theorem solo_of_newest {c : Compiler β α} {slot : Slot α} {g : Generation} {source : String}
    {outcome : Outcome α} {entered : Bool} (hrun : c.run source false = ⟨outcome, false, entered⟩)
    (hartifact : artifactOf? source g outcome = some artifact)
    (hfloor : slot.floor ≤ g) (hstored : slot.stored < g) :
    (solo c slot g source false).outcome? = some .published ∧
      (solo c slot g source false).slot = { slot with latest := some artifact } := by
  obtain ⟨hverdict, hslot⟩ :=
    conclusionAt_of_artifact (a := begun g source false) slot hartifact
  have hwhy : outcome ≠ .refused .canceled := by
    rintro rfl
    cases hartifact
  obtain ⟨made, hmade, -, hg⟩ := exists_artifactOf? source g hwhy
  obtain rfl : made = artifact := Option.some.inj (hmade.symm.trans hartifact)
  have htaken : slot.verdict made false = .published := by
    rw [Slot.verdict_eq_published_iff, hg]
    exact ⟨rfl, hfloor, hstored⟩
  rw [solo_eq, hrun]
  constructor
  · exact congrArg some (hverdict.trans htaken)
  · exact hslot.trans (congrArg Prod.snd (Slot.publish_of_published htaken))

namespace Account

/-- What the attempt `g` of `source` does at a slot if its compile comes to `outcome` and its token
is then cancelled or not. -/
structure Follows (account : Account α) (slot : Slot α) (g : Generation) (source : String)
    (outcome : Outcome α) (token : Bool) : Prop where
  /-- It always comes to an end. -/
  ends : account.outcome?.isSome
  published : account.outcome? = some .published ↔
    outcome ≠ .refused .canceled ∧ token = false ∧ slot.floor ≤ g ∧ slot.stored < g
  cancelled : account.outcome? = some .cancelled ↔ outcome = .refused .canceled ∨ token = true
  superseded : account.outcome? = some .superseded ↔
    outcome ≠ .refused .canceled ∧ token = false ∧ (g < slot.floor ∨ g ≤ slot.stored)
  /-- What it publishes is what the compile came to, with its own text and number. -/
  stored : account.outcome? = some .published → ∃ artifact : Artifact α,
    account.slot = { slot with latest := some artifact } ∧
    artifact.source = source ∧ artifact.generation = g ∧
    match outcome with
    | .value v => artifact.value? = some v ∧ artifact.diagnostics = []
    | .refused (.diagnostics []) => artifact.value? = none ∧
        artifact.diagnostics = [⟨.error, "compilation failed without diagnostics"⟩]
    | .refused (.diagnostics ds) => artifact.value? = none ∧ artifact.diagnostics = ds
    | .refused .canceled => False
    | .panicked payload => artifact.value? = none ∧
        artifact.diagnostics = [⟨.error, "compiler panicked: " ++ payload.text⟩]
  /-- If it publishes nothing, the slot stays as it is. -/
  untouched : account.outcome? ≠ some .published → account.slot = slot
  /-- It tells of a panic of its compiler, then how it ends, and of nothing else. -/
  events : ∃ how kind reason elapsed, account.outcome? = some how ∧
    Ending outcome token how kind reason ∧
    account.events =
      (match outcome with
        | .panicked payload =>
          [{ kind := .compilerPanicked, generation := some g, source := some source
             reason := some payload.text }]
        | _ => []) ++
      [{ kind, generation := some g, source := some source, elapsed := some elapsed
         reason := some reason }]

end Account

/-- An attempt whose compiler gave up does nothing but say so. -/
theorem follows_gaveUp (slot : Slot α) (g : Generation) (source : String) (token called : Bool) :
    (accountOf slot (begun g source token) (.refused .canceled) called).Follows slot g source
      (.refused .canceled) token where
  ends := rfl
  published := ⟨nofun, fun h => absurd rfl h.1⟩
  cancelled := ⟨fun _ => .inl rfl, fun _ => rfl⟩
  superseded := ⟨nofun, fun h => absurd rfl h.1⟩
  stored := nofun
  untouched _ := rfl
  events := ⟨.cancelled, _, _, _, rfl, .gaveUp, rfl⟩

theorem follows_offered {outcome : Outcome α} (hwhy : outcome ≠ .refused .canceled) (slot : Slot α)
    (g : Generation) (source : String) (token called : Bool) :
    (accountOf slot (begun g source token) outcome called).Follows slot g source outcome
      token := by
  obtain ⟨artifact, hartifact, hsource, hg⟩ := exists_artifactOf? source g hwhy
  obtain ⟨hverdict, hslot⟩ :=
    conclusionAt_of_artifact (a := begun g source token) slot hartifact
  have houtcome : (accountOf slot (begun g source token) outcome called).outcome? =
      some (slot.verdict artifact token) := congrArg some hverdict
  refine
    { ends := by rw [houtcome]; rfl
      published := ?_, cancelled := ?_, superseded := ?_, stored := ?_, untouched := ?_
      events := ?_ }
  · rw [houtcome, Option.some_inj, Slot.verdict_eq_published_iff, hg]
    simp [hwhy]
  · rw [houtcome, Option.some_inj, Slot.verdict_eq_cancelled_iff]
    simp [hwhy]
  · rw [houtcome, Option.some_inj, Slot.verdict_eq_superseded_iff, hg]
    simp [hwhy]
  · intro htaken
    rw [houtcome, Option.some_inj] at htaken
    refine ⟨artifact, ?_, hsource, hg, ?_⟩
    · exact hslot.trans (congrArg Prod.snd (Slot.publish_of_published htaken))
    · rcases artifactOf?_cases hartifact with
        ⟨v, rfl, hv⟩ | ⟨hnone, ⟨ds, rfl, hds⟩ | ⟨_, rfl, hp⟩⟩
      · exact ⟨hv, (artifact.value?_isSome_iff).1 (by simp [hv])⟩
      · cases ds with
        | nil => exact ⟨hnone, hds⟩
        | cons d ds => exact ⟨hnone, hds⟩
      · exact ⟨hnone, hp⟩
  · intro hrefused
    rw [houtcome, ne_eq, Option.some_inj] at hrefused
    exact hslot.trans (congrArg Prod.snd (Slot.publish_of_refused hrefused))
  · refine ⟨_, _, _, min (Span.ofMillis 0).millis Event.longestElapsed, rfl,
      ending_conclusionAt slot (begun g source token) outcome, ?_⟩
    cases outcome <;> rfl

/-- What an attempt does from beginning to end follows from the course of its compile, whatever the
compiler, the slot, the number, the text and the token: it comes to an end, and it is published,
cancelled or superseded, changes the slot and tells of itself as `Account.Follows` says. -/
theorem attempt_follows_compile (c : Compiler β α) (slot : Slot α) (g : Generation)
    (source : String) (cancelled : Bool) :
    ∃ outcome token,
      c.Course source cancelled (solo c slot g source cancelled).compileCalled outcome token ∧
      ((solo c slot g source cancelled).compileCalled = true ↔
        ∃ parsed, (c.parse source cancelled).outcome = .value parsed) ∧
      (solo c slot g source cancelled).Follows slot g source outcome token := by
  have hcourse := c.course_run source cancelled
  rw [solo_eq]
  refine ⟨_, _, hcourse, hcourse.entered_iff, ?_⟩
  by_cases hwhy : (c.run source cancelled).outcome = .refused .canceled
  · rw [hwhy]
    exact follows_gaveUp slot g source _ _
  · exact follows_offered hwhy slot g source _ _

/-- A compiler that cancels its own token and then panics: the panic is told, and the artifact is
refused. -/
example : (solo (β := Unit) ⟨fun _ _ => ⟨.value (), false⟩, fun _ _ => ⟨.panicked .other, true⟩⟩
    ({} : Slot Nat) 1 "a" false).events.map (fun e => (e.kind, e.reason)) =
      [(.compilerPanicked, some "unknown panic"), (.attemptDiscarded, some "cancelled")] := rfl

end Attempt

end CompileWatch
