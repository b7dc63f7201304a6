import CompileWatch.Proofs.Handles

/-!
# What a run says

A run says that it has started, speaks in rounds, and says that it has stopped. In each round it
announces a new text, says of the attempt of the round before that it is superseded if that attempt
was not finished when the run looked at it, and announces a new attempt with a number above all
numbers handed out before. Only a run that ends because its grace time was exceeded says so before
its last word.
-/
namespace CompileWatch

/-- What a run does for one new text. -/
structure Round where
  text : String
  /-- The attempt of the round before, if it was superseded. -/
  superseded : Option Generation
  /-- The number of the attempt that was started for the text. -/
  generation : Generation

namespace Service

variable {α : Type} {s t s₀ : Service α} {action : Action α} {actions : List (Action α)}
  {sent told : List Stamped} {id : Nat} {text : String} {rounds before : List Round}
  {rest : List Event} {superseded : Option Generation} {g : Generation}

/-! ## The words of a run -/

/-- The event with which the run `id` says that the attempt `g` is superseded. -/
def supersededEvent (id : Nat) (g : Generation) : Event :=
  { runEvent .attemptSuperseded id with generation := some g }

/-- The first words of a round: there is a new text, and an attempt may be superseded. -/
def opening (id : Nat) (text : String) (superseded : Option Generation) : List Event :=
  { runEvent .sourceChanged id with source := some text } ::
    superseded.toList.map (supersededEvent id)

/-- The words of a round of the run `id`. -/
def roundEvents (id : Nat) (r : Round) : List Event :=
  opening id r.text r.superseded ++
    [{ runEvent .attemptStarting id with generation := some r.generation, source := some r.text }]

/-- The words of the run `id` from its start to the end of its rounds. -/
def spoken (id : Nat) (rounds : List Round) : List Event :=
  runEvent .engineStarted id :: rounds.flatMap (roundEvents id)

/-- What the run `id` says of the grace time when it comes to a result. -/
def graceReport (id : Nat) : StopResult → List Event
  | .error (.graceExceeded grace abandoned) =>
    [{ runEvent .graceExceeded id with reason := some (toString abandoned) : Event }.withElapsed
      grace]
  | .ok () | .error (.supervisorPanicked _) => []

/-- The last words of the run `id`. -/
def ending (id : Nat) (result : StopResult) : List Event :=
  graceReport id result ++ [runEvent .engineStopped id]

/-- The events among those sent that carry the run `id`, in the order in which they were sent. -/
def said (id : Nat) (sent : List Stamped) : List Event :=
  (sent.map (·.event)).filter (·.run = some id)

theorem said_append (id : Nat) (first second : List Stamped) :
    said id (first ++ second) = said id first ++ said id second := by
  simp [said]

theorem said_eq_nil (h : ∀ e ∈ sent, e.event.run ≠ some id) : said id sent = [] := by
  simpa [said] using h

/-- An event of the run itself is one of its words. -/
theorem said_singleton {e : Event} (seq : Nat) (h : e.run = some id) :
    said id [⟨seq, e⟩] = [e] := by
  simp [said, h]

theorem spoken_append (id : Nat) (rounds : List Round) (r : Round) :
    spoken id (rounds ++ [r]) = spoken id rounds ++ roundEvents id r := by
  simp [spoken]

/-! ## The moments of a round -/

/-- The number that is handed out by an action. -/
def handedOut? (s : Service α) : Action α → Option Generation
  | .proceed id => (s.run? id).bind fun r =>
    match r.stage with
    | .numbering _ => some (s.generation + 1)
    | _ => none
  | _ => none

/-- Is the text one for which a run begins a round after the rounds `before`? -/
def IsFresh (before : List Round) (text : String) : Prop :=
  text ≠ "" ∧ ∀ r, before.getLast? = some r → r.text ≠ text

/-- In the history `actions` from `s₀` the run `id` looked at the attempt of the last of the rounds
`before`, after it had announced `text`; and it superseded that attempt exactly if it was there and
had not finished. -/
def Looked (s₀ : Service α) (actions : List (Action α)) (id : Nat) (before : List Round)
    (text : String) (superseded : Option Generation) : Prop :=
  ∃ first u told, s₀.Meets actions first (.proceed id) u told ∧
    (u.run? id).map (·.stage) = some (.looking text) ∧
    said id told = spoken id before ++ opening id text none ∧
    ∀ g, superseded = some g ↔ before.getLast?.map (·.generation) = some g ∧
      ∃ a, u.attempt? g = some a ∧ a.isFinished = false

/-- In the history `actions` from `s₀` the run `id` took the number `g` for its round, which is
larger than all numbers that were handed out before to any run. -/
def TookNumber (s₀ : Service α) (actions : List (Action α)) (id : Nat) (before : List Round)
    (text : String) (superseded : Option Generation) (g : Generation) : Prop :=
  ∃ first u told, s₀.Meets actions first (.proceed id) u told ∧
    u.handedOut? (.proceed id) = some g ∧
    said id told = spoken id before ++ opening id text superseded ∧
    ∀ k ∈ s₀.observe handedOut? first, k < g

/-- Did the run `id` go through these rounds, one after the other? -/
inductive Happened (s₀ : Service α) (actions : List (Action α)) (id : Nat) : List Round → Prop
  | none : Happened s₀ actions id []
  | next {before : List Round} {r : Round} : Happened s₀ actions id before →
      IsFresh before r.text → Looked s₀ actions id before r.text r.superseded →
      TookNumber s₀ actions id before r.text r.superseded r.generation →
      Happened s₀ actions id (before ++ [r])

/-- What a run has said after its last whole round, as far as it has come. -/
def Adds (s₀ : Service α) (actions : List (Action α)) (id : Nat) (rounds : List Round)
    (r : Run) (rest : List Event) : Prop :=
  match r.stage with
  | .ended result => rest = ending id result
  | .closing result => rest = graceReport id result
  | _ => rest = [] ∨ ∃ text superseded, rest = opening id text superseded ∧
      IsFresh rounds text ∧
      ∀ g, superseded = some g → Looked s₀ actions id rounds text (some g)

theorem Looked.append (h : Looked s₀ actions id before text superseded)
    (more : List (Action α)) : Looked s₀ (actions ++ more) id before text superseded := by
  obtain ⟨first, u, told, hmeets, hlooked⟩ := h
  exact ⟨first, u, told, hmeets.append more, hlooked⟩

theorem TookNumber.append (h : TookNumber s₀ actions id before text superseded g)
    (more : List (Action α)) : TookNumber s₀ (actions ++ more) id before text superseded g := by
  obtain ⟨first, u, told, hmeets, htook⟩ := h
  exact ⟨first, u, told, hmeets.append more, htook⟩

theorem Happened.append (h : Happened s₀ actions id rounds) (more : List (Action α)) :
    Happened s₀ (actions ++ more) id rounds := by
  induction h with
  | none => exact .none
  | next _ hfresh hlooked htook ih =>
    exact .next ih hfresh (hlooked.append more) (htook.append more)

/-! ## From stage to stage -/

/-- Does a run remember the text and the attempt of its last round? -/
def Remembers (r : Run) (rounds : List Round) : Prop :=
  r.lastText = rounds.getLast?.map (·.text) ∧ r.previous = rounds.getLast?.map (·.generation)

/-- How far a run has come in its round, with what it has said of it so far. -/
def InRound (s₀ : Service α) (actions : List (Action α)) (id : Nat) (rounds : List Round)
    (rest : List Event) (r : Run) : Prop :=
  match r.stage with
  | .waiting _ => rest = [] ∧ Remembers r rounds
  | .noticed text => rest = [] ∧ IsFresh rounds text ∧ Remembers r rounds
  | .looking text => rest = opening id text none ∧ IsFresh rounds text ∧ Remembers r rounds
  | .cancelling text g | .callingOff text g | .superseding text g =>
    rest = opening id text none ∧ IsFresh rounds text ∧ Looked s₀ actions id rounds text (some g)
  | .numbering text => ∃ superseded, rest = opening id text superseded ∧ IsFresh rounds text ∧
    Looked s₀ actions id rounds text superseded
  | .raising text g | .announcing text g =>
    ∃ superseded, rest = opening id text superseded ∧ IsFresh rounds text ∧
      Looked s₀ actions id rounds text superseded ∧
      TookNumber s₀ actions id rounds text superseded g
  | .launching text g => rest = [] ∧
    rounds.getLast?.map (fun b => (b.text, b.generation)) = some (text, g)
  | .draining _ | .overdue _ | .givingUp _ | .reportingGrace _ | .dead _ => rest = []
  | .closing result => rest = graceReport id result
  | .ended result => rest = ending id result

/-- A run has gone through whole rounds and is somewhere after them. -/
def Speaks (s₀ : Service α) (actions : List (Action α)) (id : Nat) (told : List Stamped)
    (r : Run) : Prop :=
  ∃ rounds rest, said id told = spoken id rounds ++ rest ∧ Happened s₀ actions id rounds ∧
    InRound s₀ actions id rounds rest r

theorem InRound.append {r : Run} (h : InRound s₀ actions id rounds rest r)
    (more : List (Action α)) : InRound s₀ (actions ++ more) id rounds rest r := by
  unfold InRound at h ⊢
  split at h
  case h_4 | h_5 | h_6 =>
    obtain ⟨hrest, hfresh, hlooked⟩ := h
    exact ⟨hrest, hfresh, hlooked.append more⟩
  case h_7 =>
    obtain ⟨superseded, hrest, hfresh, hlooked⟩ := h
    exact ⟨superseded, hrest, hfresh, hlooked.append more⟩
  case h_8 | h_9 =>
    obtain ⟨superseded, hrest, hfresh, hlooked, htook⟩ := h
    exact ⟨superseded, hrest, hfresh, hlooked.append more, htook.append more⟩
  all_goals exact h

/-- A run that has nothing to do with what happens says nothing, wherever it is in its round. -/
theorem Speaks.silent {r r' : Run} (h : Speaks s₀ actions id told r)
    (hstage : r'.stage = r.stage) (hlast : r'.lastText = r.lastText)
    (hprevious : r'.previous = r.previous) (hsent : said id sent = []) (more : List (Action α)) :
    Speaks s₀ (actions ++ more) id (told ++ sent) r' := by
  obtain ⟨rounds, rest, hsaid, hhappened, hround⟩ := h
  refine ⟨rounds, rest, ?_, hhappened.append more, ?_⟩
  · rw [said_append, hsent, List.append_nil, hsaid]
  · have hkept := hround.append more
    unfold InRound Remembers at hkept ⊢
    rw [hstage, hlast, hprevious]
    exact hkept

theorem Remembers.isFresh {r : Run} (h : Remembers r rounds) (hnews : r.isNews text = true) :
    IsFresh rounds text := by
  simp only [Run.isNews, Bool.and_eq_true, bne_iff_ne, ne_eq] at hnews
  refine ⟨hnews.1, fun b hb htext => hnews.2 ?_⟩
  rw [h.1, hb, Option.map_some, htext]

theorem handedOut?_eq_some_iff : s.handedOut? action = some g ↔
    ∃ id r text, action = .proceed id ∧ s.run? id = some r ∧ r.stage = .numbering text ∧
      g = s.generation + 1 := by
  constructor
  · intro h
    cases action with
    | proceed id =>
      obtain ⟨r, hr, hs⟩ := Option.bind_eq_some_iff.1 h
      split at hs
      · next text hstage => cases hs; exact ⟨id, r, text, rfl, hr, hstage, rfl⟩
      · cases hs
    | _ => cases h
  · rintro ⟨id, r, text, rfl, hr, hstage, rfl⟩
    simp [handedOut?, hr, hstage]

theorem Step.generation_of_handedOut? (h : Step s action t sent)
    (hg : s.handedOut? action = some g) : t.generation = g := by
  obtain ⟨id, r, text, rfl, hr, hstage, rfl⟩ := handedOut?_eq_some_iff.1 hg
  cases h with
  | @run r₀ r₁ _ _ _ hr₀ h =>
    obtain rfl : id = r₀.id := Option.some.inj h.runner
    cases hr.symm.trans hr₀
    cases h
    case number => rfl
    all_goals simp_all
  | attempt _ h => cases h

/-- What was handed out is not above the number handed out last. -/
theorem le_generation_of_mem_observe (hsteps : s₀.steps? actions = some (s, sent)) :
    ∀ k ∈ s₀.observe handedOut? actions, k ≤ s.generation := by
  refine observe_induct (motive := fun u seen => ∀ k ∈ seen, k ≤ u.generation)
    (fun {u v a told seen} _ _ hone hseen k hk => ?_) hsteps (by simp)
  have hstep := Step.of_step? hone
  rcases List.mem_append.1 hk with hold | hnow
  · exact Nat.le_trans (hseen k hold) hstep.numberStep.generation_le
  · exact Nat.le_of_eq (hstep.generation_of_handedOut? (Option.mem_toList.1 hnow)).symm

/-- An attempt that is not finished is there. -/
theorem exists_of_isFinished_eq_false (h : s.isFinished g = false) :
    ∃ a, s.attempt? g = some a ∧ a.isFinished = false := by
  unfold isFinished at h
  split at h
  · next a ha => exact ⟨a, ha, h⟩
  · cases h

/-- A run that has announced a text looks now: it forgets an attempt that is finished. -/
theorem Remembers.looked_forget {r : Run} (h : Remembers r rounds) (hr : s.run? r.id = some r)
    (hs : r.stage = .looking text) (hfinished : ∀ g, r.previous = some g → s.isFinished g = true)
    (hsteps : s₀.steps? actions = some (s, told))
    (hsaid : said r.id told = spoken r.id rounds ++ opening r.id text none) :
    Looked s₀ (actions ++ [.proceed r.id]) r.id rounds text none := by
  refine ⟨actions, s, told, meets_append hsteps _, by simp [hr, hs], hsaid, fun g => ?_⟩
  refine ⟨nofun, fun ⟨hg, a, ha, hf⟩ => ?_⟩
  have hover := isFinished_of_attempt? ha (hfinished g (h.2.trans hg))
  exact absurd (hf.symm.trans hover) Bool.false_ne_true

/-- It displaces an attempt that is not finished. -/
theorem Remembers.looked_displace {r : Run} (h : Remembers r rounds) (hr : s.run? r.id = some r)
    (hs : r.stage = .looking text) (hprevious : r.previous = some g)
    (hfinished : s.isFinished g = false) (hsteps : s₀.steps? actions = some (s, told))
    (hsaid : said r.id told = spoken r.id rounds ++ opening r.id text none) :
    Looked s₀ (actions ++ [.proceed r.id]) r.id rounds text (some g) := by
  have hlast := h.2.symm.trans hprevious
  refine ⟨actions, s, told, meets_append hsteps _, by simp [hr, hs], hsaid, fun k => ?_⟩
  constructor
  · rintro ⟨⟩
    exact ⟨hlast, exists_of_isFinished_eq_false hfinished⟩
  · rintro ⟨hk, -⟩
    exact hlast.symm.trans hk

/-- A run that takes a number takes one that is above all that were handed out. -/
theorem tookNumber_of_numbering {r : Run} (hr : s.run? r.id = some r)
    (hs : r.stage = .numbering text) (hsteps : s₀.steps? actions = some (s, told))
    (hsaid : said r.id told = spoken r.id rounds ++ opening r.id text superseded) :
    TookNumber s₀ (actions ++ [.proceed r.id]) r.id rounds text superseded (s.generation + 1) := by
  refine ⟨actions, s, told, meets_append hsteps _, ?_, hsaid, fun k hk => ?_⟩
  · exact handedOut?_eq_some_iff.2 ⟨r.id, r, text, rfl, hr, hs, rfl⟩
  · exact Nat.lt_succ_of_le (le_generation_of_mem_observe hsteps k hk)

/-- A run that takes a step of its own goes on in its round, or from one round to the next. -/
theorem RunStep.speaks {r r' : Run} (h : RunStep s r action r' t sent)
    (hr : s.run? r.id = some r) (hsteps : s₀.steps? actions = some (s, told))
    (hspeaks : Speaks s₀ actions r.id told r) :
    Speaks s₀ (actions ++ [action]) r.id (told ++ sent) r' := by
  obtain ⟨rounds, rest, hsaid, hhappened, hround⟩ := hspeaks
  have hlater := hhappened.append [action]
  have hsilent : said r.id (told ++ []) = spoken r.id rounds ++ rest := by
    rw [List.append_nil, hsaid]
  -- the run says one thing more in its round
  have hword {seq : Nat} {e : Event} (he : e.run = some r.id) :
      said r.id (told ++ [⟨seq, e⟩]) = spoken r.id rounds ++ (rest ++ [e]) := by
    rw [said_append, said_singleton seq he, hsaid, List.append_assoc]
  cases h
  case glance _ => exact ⟨rounds, rest, hsilent, hlater, hround.append _⟩
  case notice hs _ hnews =>
    simp only [InRound, hs] at hround
    obtain ⟨rfl, hmemory⟩ := hround
    exact ⟨rounds, [], hsilent, hlater, rfl, hmemory.isFresh hnews, hmemory⟩
  case rest hs _ _ =>
    simp only [InRound, hs] at hround
    obtain ⟨rfl, hmemory⟩ := hround
    exact ⟨rounds, [], hsilent, hlater, rfl, hmemory⟩
  case die hs _ | leave hs _ =>
    simp only [InRound, hs] at hround
    obtain ⟨rfl, -⟩ := hround
    exact ⟨rounds, [], hsilent, hlater, rfl⟩
  case drained hs _ | graceEnds hs _ _ | cancelLast hs _ | cancelNone hs _ | callOffLast hs _
      | callOffNone hs _ =>
    simp only [InRound, hs] at hround
    subst hround
    exact ⟨rounds, [], hsilent, hlater, rfl⟩
  case announceChange text hs =>
    simp only [InRound, hs] at hround
    obtain ⟨rfl, hfresh, hmemory⟩ := hround
    exact ⟨rounds, opening r.id text none, hword rfl, hlater, rfl, hfresh, hmemory⟩
  case forget text hs hfinished =>
    simp only [InRound, hs] at hround
    obtain ⟨rfl, hfresh, hmemory⟩ := hround
    exact ⟨rounds, opening r.id text none, hsilent, hlater, none, rfl, hfresh,
      hmemory.looked_forget hr hs hfinished hsteps hsaid⟩
  case displace text g hs hprevious hfinished =>
    simp only [InRound, hs] at hround
    obtain ⟨rfl, hfresh, hmemory⟩ := hround
    exact ⟨rounds, opening r.id text none, hsilent, hlater, rfl, hfresh,
      hmemory.looked_displace hr hs hprevious hfinished hsteps hsaid⟩
  case cancel text g hs | callOff text g hs =>
    simp only [InRound, hs] at hround
    obtain ⟨rfl, hfresh, hlooked⟩ := hround
    exact ⟨rounds, opening r.id text none, hsilent, hlater, rfl, hfresh, hlooked.append _⟩
  case announceSuperseded text g hs =>
    simp only [InRound, hs] at hround
    obtain ⟨rfl, hfresh, hlooked⟩ := hround
    exact ⟨rounds, opening r.id text (some g), hword rfl, hlater, some g, rfl, hfresh,
      hlooked.append _⟩
  case number text hs =>
    simp only [InRound, hs] at hround
    obtain ⟨superseded, rfl, hfresh, hlooked⟩ := hround
    exact ⟨rounds, opening r.id text superseded, hsilent, hlater, superseded, rfl, hfresh,
      hlooked.append _, tookNumber_of_numbering hr hs hsteps hsaid⟩
  case raise text g hs =>
    simp only [InRound, hs] at hround
    obtain ⟨superseded, rfl, hfresh, hlooked, htook⟩ := hround
    exact ⟨rounds, opening r.id text superseded, hsilent, hlater, superseded, rfl, hfresh,
      hlooked.append _, htook.append _⟩
  case announceStart text g hs =>
    -- the round is whole now
    simp only [InRound, hs] at hround
    obtain ⟨superseded, rfl, hfresh, hlooked, htook⟩ := hround
    refine ⟨rounds ++ [⟨text, superseded, g⟩], [], ?_, ?_, rfl, by simp⟩
    · rw [hword rfl, spoken_append, List.append_nil]
      rfl
    · exact .next hlater hfresh (hlooked.append _) (htook.append _)
  case launch text g hs =>
    simp only [InRound, hs] at hround
    obtain ⟨rfl, hlast⟩ := hround
    obtain ⟨b, hb, heq⟩ := Option.map_eq_some_iff.1 hlast
    cases heq
    exact ⟨rounds, [], hsilent, hlater, rfl, by simp [hb], by simp [hb]⟩
  case announceGrace n hs =>
    simp only [InRound, hs] at hround
    subst hround
    exact ⟨rounds, _, hword rfl, hlater, rfl⟩
  case announceEnd result hs =>
    simp only [InRound, hs] at hround
    subst hround
    exact ⟨rounds, _, hword rfl, hlater, rfl⟩

/-- A start that makes no run says nothing. -/
theorem Step.sent_of_startAgain (h : Step s .start t sent) (hrun : s.isRunning = true) :
    sent = [] := by
  cases h with
  | startAgain _ => rfl
  | start hnot => exact absurd (hnot.symm.trans hrun) Bool.false_ne_true
  | run _ h => cases h
  | attempt _ h => cases h

/-- A run takes a step of its own, or it is started, or what happens says nothing of it and may at
most tell it to stop. -/
theorem Step.said (h : Step s action t sent) (hs : s.Reachable) (id : Nat) :
    (∃ r r', r.id = id ∧ s.run? id = some r ∧ t.run? id = some r' ∧
      RunStep s r action r' t sent) ∨
    (s.run? id = none ∧ t.run? id = some { id, stage := .waiting s.nextPoll } ∧
      said id sent = [runEvent .engineStarted id]) ∨
    (said id sent = [] ∧ (t.run? id = s.run? id ∨
      ∃ r, s.run? id = some r ∧ t.run? id = some { r with cancelled := true })) := by
  by_cases hnew : action = .start ∧ s.isRunning = false ∧ id = s.runs.length + 1
  · obtain ⟨rfl, hrun, rfl⟩ := hnew
    obtain ⟨hfound, rfl⟩ := h.of_newRun hs hrun
    exact .inr (.inl ⟨hs.run?_next, hfound, said_singleton _ rfl⟩)
  have hrun := h.run? id
  by_cases hown : runner? action = some id
  · cases h
    case run r₀ r₁ hr₀ h =>
      obtain rfl : r₀.id = id := Option.some.inj (h.runner.symm.trans hown)
      exact .inl ⟨r₀, r₁, rfl, hr₀, by simp [h.run? hr₀], h⟩
    case attempt _ h => cases h <;> cases hown
    all_goals cases hown
  · refine .inr (.inr ⟨said_eq_nil fun e he hid => ?_, ?_⟩)
    · cases h.sentBy hs.signed he with
      | run _ h hsent => exact hown (h.runner.trans (hsent.symm.trans hid))
      | start hstart hevent =>
        subst hstart
        cases hrunning : s.isRunning with
        | true => simp [h.sent_of_startAgain hrunning] at he
        | false =>
          rw [hevent] at hid
          exact hnew ⟨rfl, hrunning, (Option.some.inj hid).symm⟩
      | panic _ _ _ hevent | last _ _ _ hevent => rw [hevent] at hid; cases hid
      | retrieval _ hnone => cases hnone.symm.trans hid
    · rcases hrun with hsame | htold | ⟨r₀, r₁, rfl, -, -, h⟩ | ⟨hid, hnone, hfound⟩
      · exact .inl hsame
      · exact .inr htold
      · exact absurd h.runner hown
      · rcases h.length_runs with hlength | ⟨hstart, hidle, -⟩
        · have hmore := h.length_runs_of_new hnone hfound
          omega
        · exact absurd ⟨hstart, hidle, hid⟩ hnew

/-- Every run has gone through whole rounds and is somewhere after them, and of a run that is not
there nothing was said. -/
theorem speaks_of_steps? (hs₀ : s₀.Reachable) (hnone : s₀.runs = [])
    (hsteps : s₀.steps? actions = some (s, sent)) (id : Nat) :
    (s.run? id = none → said id sent = []) ∧
      ∀ r, s.run? id = some r → Speaks s₀ actions id sent r := by
  refine steps?_induct (motive := fun actions s sent => (s.run? id = none → said id sent = []) ∧
      ∀ r, s.run? id = some r → Speaks s₀ actions id sent r)
    (fun {first u v a told more} hfirst hone ih => ?_) ⟨fun _ => rfl, fun r hr => ?_⟩ hsteps
  · have hstep := Step.of_step? hone
    have hu : u.Reachable := hs₀.reaches ⟨first, told, hfirst⟩
    rcases hstep.said hu id with ⟨r, r', rfl, hr, hr', hrun⟩ | ⟨hnew, hfound, hstarted⟩ |
      ⟨hsilent, hsame | ⟨r, hr, htold⟩⟩
    · refine ⟨fun hnone => ?_, fun r₁ hr₁ => ?_⟩
      · cases hr'.symm.trans hnone
      · cases hr'.symm.trans hr₁
        exact hrun.speaks hr hfirst (ih.2 r hr)
    · refine ⟨fun hnone => ?_, fun r₁ hr₁ => ?_⟩
      · cases hfound.symm.trans hnone
      · cases hfound.symm.trans hr₁
        refine ⟨[], [], ?_, .none, rfl, rfl, rfl⟩
        rw [said_append, ih.1 hnew, hstarted]
        rfl
    · rw [hsame]
      refine ⟨fun hnone => ?_, fun r hr => (ih.2 r hr).silent rfl rfl rfl hsilent [a]⟩
      rw [said_append, ih.1 hnone, hsilent]
      rfl
    · refine ⟨fun hnone => ?_, fun r₁ hr₁ => ?_⟩
      · cases htold.symm.trans hnone
      · cases htold.symm.trans hr₁
        exact (ih.2 r hr).silent rfl rfl rfl hsilent [a]
  · rw [run?, hnone] at hr
    cases hr

/-- What a run has said after its last whole round is the beginning of a round, or of its end. -/
theorem InRound.adds {r : Run} (h : InRound s₀ actions id rounds rest r) :
    Adds s₀ actions id rounds r rest := by
  unfold InRound at h
  unfold Adds
  cases hs : r.stage <;> simp only [hs] at h ⊢
  case ended result | closing result => exact h
  case looking text =>
    exact .inr ⟨text, none, h.1, h.2.1, nofun⟩
  case cancelling text g | callingOff text g | superseding text g =>
    exact .inr ⟨text, none, h.1, h.2.1, nofun⟩
  case numbering text =>
    obtain ⟨superseded, hrest, hfresh, hlooked⟩ := h
    exact .inr ⟨text, superseded, hrest, hfresh, fun g hg => hg ▸ hlooked⟩
  case raising text g | announcing text g =>
    obtain ⟨superseded, hrest, hfresh, hlooked, -⟩ := h
    exact .inr ⟨text, superseded, hrest, hfresh, fun g hg => hg ▸ hlooked⟩
  case draining since | overdue n | givingUp n | reportingGrace n | dead reason => exact .inl h
  case waiting wake | noticed text | launching text g => exact .inl h.1

/-! ## What is superseded stays out of the slot -/

/-- An attempt does not disappear. -/
theorem Step.exists_attempt? (h : Step s action t sent) {a : Attempt α}
    (ha : s.attempt? g = some a) : ∃ a', t.attempt? g = some a' ∧ Change s a a' := by
  rcases h.attempt? g with hrel | ⟨-, -, -, -, -, -, hnone, -⟩
  · rw [ha] at hrel
    exact exists_of_some_rel hrel
  · cases ha.symm.trans hnone

/-- The token of the attempt `g` is cancelled. -/
def IsCancelled (s : Service α) (g : Generation) : Prop :=
  ∃ a, s.attempt? g = some a ∧ a.cancelled = true

theorem Step.isCancelled (h : Step s action t sent) (hg : s.IsCancelled g) : t.IsCancelled g := by
  obtain ⟨a, ha, hc⟩ := hg
  obtain ⟨a', ha', hchange⟩ := h.exists_attempt? ha
  exact ⟨a', ha', hchange.cancelled hc⟩

/-- What holds at all times of the attempts that are displaced by newer ones. -/
structure Withdrawn (s : Service α) (sent : List Stamped) : Prop where
  /-- The attempt that a run is about to cancel is there. -/
  marked {id : Nat} {r : Run} {text : String} {g : Generation} : s.run? id = some r →
    r.stage = .cancelling text g → ∃ a, s.attempt? g = some a
  /-- It is cancelled before the run says so. -/
  dropped {id : Nat} {r : Run} {text : String} {g : Generation} : s.run? id = some r →
    r.stage = .callingOff text g ∨ r.stage = .superseding text g → s.IsCancelled g
  /-- An attempt of which it was said that it is superseded is cancelled. -/
  told {id : Nat} {g : Generation} : supersededEvent id g ∈ said id sent → s.IsCancelled g

/-- A run sets out to cancel an attempt when it has seen that it is there and not finished. -/
theorem RunStep.marked {r r' : Run} (h : RunStep s r action r' t sent)
    (hs : r'.stage = .cancelling text g) : ∃ a, s.attempt? g = some a := by
  cases h
  case displace hfinished =>
    cases hs
    obtain ⟨a, ha, -⟩ := exists_of_isFinished_eq_false hfinished
    exact ⟨a, ha⟩
  all_goals simp_all

theorem RunStep.dropped {r r' : Run} (h : RunStep s r action r' t sent)
    (hmarked : r.stage = .cancelling text g → ∃ a, s.attempt? g = some a)
    (hdropped : r.stage = .callingOff text g ∨ r.stage = .superseding text g → t.IsCancelled g)
    (hs : r'.stage = .callingOff text g ∨ r'.stage = .superseding text g) : t.IsCancelled g := by
  cases h
  case cancel text' k hstage =>
    obtain ⟨rfl, rfl⟩ : text' = text ∧ k = g := by simpa using hs
    obtain ⟨a, ha⟩ := hmarked hstage
    refine ⟨{ a with cancelled := true }, ?_, rfl⟩
    rw [attempt?_moveRun, attempt?_cancelAttempt, if_pos rfl, ha]
    rfl
  case callOff text' k hstage =>
    obtain ⟨rfl, rfl⟩ : text' = text ∧ k = g := by simpa using hs
    exact hdropped (.inl hstage)
  case glance => exact hdropped hs
  all_goals simp_all

theorem RunStep.superseding {r r' : Run} (h : RunStep s r action r' t sent)
    (he : supersededEvent r.id g ∈ said r.id sent) : ∃ text, r.stage = .superseding text g := by
  cases h
  case announceSuperseded text k hs =>
    rw [said_singleton _ rfl, List.mem_singleton] at he
    obtain rfl : g = k := by simpa [supersededEvent] using he
    exact ⟨text, hs⟩
  case announceChange | announceStart | announceGrace | announceEnd =>
    rw [said_singleton _ rfl, List.mem_singleton] at he
    simp [supersededEvent, runEvent, Event.withElapsed] at he
  all_goals cases he

theorem Withdrawn.step (h : Withdrawn s told) (hs : s.Reachable)
    (hstep : Step s action t sent) : Withdrawn t (told ++ sent) where
  marked {id r' text g} hr' hstage := by
    have later (hold : ∃ a, s.attempt? g = some a) : ∃ a, t.attempt? g = some a := by
      obtain ⟨a, ha⟩ := hold
      obtain ⟨a', ha', -⟩ := hstep.exists_attempt? ha
      exact ⟨a', ha'⟩
    rcases hstep.run? id with hsame | ⟨r, hr, htold⟩ | ⟨r, r₁, -, -, hr₁, hrun⟩ | ⟨-, -, hnew⟩
    · exact later (h.marked (hsame ▸ hr') hstage)
    · cases hr'.symm.trans htold
      exact later (h.marked hr hstage)
    · cases hr'.symm.trans hr₁
      exact later (hrun.marked hstage)
    · cases hr'.symm.trans hnew
      cases hstage
  dropped {id r' text g} hr' hstage := by
    rcases hstep.run? id with hsame | ⟨r, hr, htold⟩ | ⟨r, r₁, -, hr, hr₁, hrun⟩ | ⟨-, -, hnew⟩
    · exact hstep.isCancelled (h.dropped (hsame ▸ hr') hstage)
    · cases hr'.symm.trans htold
      exact hstep.isCancelled (h.dropped hr hstage)
    · cases hr'.symm.trans hr₁
      exact hrun.dropped (h.marked hr) (fun hold => hstep.isCancelled (h.dropped hr hold)) hstage
    · cases hr'.symm.trans hnew
      rcases hstage with hstage | hstage <;> cases hstage
  told {id g} he := by
    rw [said_append, List.mem_append] at he
    rcases he with hold | hnow
    · exact hstep.isCancelled (h.told hold)
    · rcases hstep.said hs id with ⟨r, r', rfl, hr, -, hrun⟩ | ⟨-, -, hstarted⟩ | ⟨hsilent, -⟩
      · obtain ⟨text, hstage⟩ := hrun.superseding hnow
        exact hstep.isCancelled (h.dropped hr (.inr hstage))
      · rw [hstarted, List.mem_singleton] at hnow
        cases hnow
      · rw [hsilent] at hnow
        cases hnow

theorem withdrawn_of_steps? {config : Config} {sink : MessageSink} {text : String}
    (hsteps : (ofConfig config sink text : Service α).steps? actions = some (s, sent)) :
    Withdrawn s sent := by
  refine steps?_induct (motive := fun _ s sent => Withdrawn s sent)
    (fun {first u v a told more} hfirst hone ih => ?_) ⟨?_, ?_, ?_⟩ hsteps
  · exact ih.step ⟨config, sink, text, first, told, hfirst⟩ (Step.of_step? hone)
  · exact fun hr => nomatch hr
  · exact fun hr => nomatch hr
  · exact fun he => nomatch he

theorem Reaches.isCancelled (h : s.Reaches t) (hg : s.IsCancelled g) : t.IsCancelled g :=
  h.induct (motive := fun u => u.IsCancelled g)
    (fun hu hstep => (Step.of_step? hstep).isCancelled hu) hg

/-- The slot never changes to a cancelled attempt. -/
theorem Step.latest_of_isCancelled (h : Step s action t sent) (hs : s.Reachable)
    {artifact : Artifact α} (hg : s.IsCancelled artifact.generation)
    (hlatest : t.slot.latest = some artifact) : s.slot.latest = some artifact := by
  have hslot := h.slot.1
  cases hacc : s.accepted? action with
  | none => rwa [hacc, Option.none_or, hlatest, eq_comm] at hslot
  | some taken =>
    rw [hacc, Option.some_or, hlatest] at hslot
    cases hslot
    obtain ⟨⟨a, -, ha, -, hnot⟩, -⟩ := hs.numbered.of_accepted? hacc
    obtain ⟨b, hb, hc⟩ := hg
    cases ha.symm.trans hb
    exact absurd (hnot.symm.trans hc) Bool.false_ne_true

/-! ## The protocol of a run -/

/-- Whatever happens, the events that carry a run are those of whole rounds after its start, and of
the beginning of one more round, or of its end as far as it has come to it. The rounds are as
`Happened` says: each is about a text that is not empty and not that of the round before, supersedes
the attempt of the round before exactly if that was there and not finished when the run looked, and
has a number above all numbers handed out before. Once the run has ended, its words are whole, with
the word of the grace time if that is its result. From the moment at which an attempt is said to be
superseded, the slot never changes to it. -/
theorem run_speaks_in_rounds {config : Config} {sink : MessageSink} {text : String}
    (hsteps : (ofConfig config sink text : Service α).steps? actions = some (s, sent)) (id : Nat) :
    (s.run? id = none → said id sent = []) ∧
    (∀ r, s.run? id = some r → ∃ rounds rest, said id sent = spoken id rounds ++ rest ∧
      Happened (ofConfig config sink text) actions id rounds ∧
      Adds (ofConfig config sink text) actions id rounds r rest) ∧
    (∀ g, supersededEvent id g ∈ said id sent → ∀ t action u told, s.Reaches t →
      t.step? action = some (u, told) → ∀ artifact, u.slot.latest = some artifact →
        artifact.generation = g → t.slot.latest = some artifact) := by
  have hs₀ : (ofConfig config sink text : Service α).Reachable :=
    ⟨config, sink, text, .refl _⟩
  have hs : s.Reachable := ⟨config, sink, text, actions, sent, hsteps⟩
  obtain ⟨habsent, hpresent⟩ := speaks_of_steps? hs₀ rfl hsteps id
  refine ⟨habsent, fun r hr => ?_, fun g hg t action u told hst hstep artifact hlatest hgen => ?_⟩
  · obtain ⟨rounds, rest, hsaid, hhappened, hround⟩ := hpresent r hr
    exact ⟨rounds, rest, hsaid, hhappened, hround.adds⟩
  · have hcancelled := hst.isCancelled ((withdrawn_of_steps? hsteps).told hg)
    subst hgen
    exact (Step.of_step? hstep).latest_of_isCancelled (hs.reaches hst) hcancelled hlatest

/-- A run supersedes its first attempt and is stopped while both are inside the compiler. -/
def supersedingRun : List (Action Nat) :=
  [Action.start, Action.tick, Action.poll 1] ++ List.replicate 6 (Action.proceed 1) ++
    [Action.take 1, Action.edit "b", Action.tick, Action.poll 1] ++
    List.replicate 9 (Action.proceed 1) ++
    [Action.take 2, Action.stop, Action.tellRun 0, Action.leave 1, Action.graceEnds 1] ++
    List.replicate 4 (Action.proceed 1)

theorem run_speaks_in_rounds_stubborn : ∃ s : Service Nat, ∃ sent,
    (ofConfig { grace := .ofMillis 0 } {} "a").steps? supersedingRun = some (s, sent) ∧
    (said 1 sent).map (·.kind) = [.engineStarted, .sourceChanged, .attemptStarting,
      .sourceChanged, .attemptSuperseded, .attemptStarting, .graceExceeded, .engineStopped] ∧
    ∃ rounds, said 1 sent =
      spoken 1 rounds ++ ending 1 (.error (.graceExceeded (.ofMillis 0) 2)) := by
  have hrun : ((ofConfig { grace := .ofMillis 0 } {} "a").steps? supersedingRun).map
      (fun (s, sent) => ((s.run? 1).map (·.stage), (said 1 sent).map (·.kind))) =
      some (some (.ended (.error (.graceExceeded (.ofMillis 0) 2))), [.engineStarted,
        .sourceChanged, .attemptStarting, .sourceChanged, .attemptSuperseded, .attemptStarting,
        .graceExceeded, .engineStopped]) := by
    with_unfolding_all exact rfl
  obtain ⟨⟨s, sent⟩, hsteps, hseen⟩ := Option.map_eq_some_iff.1 hrun
  obtain ⟨hended, hkinds⟩ : _ ∧ _ := by simpa only [Prod.mk.injEq] using hseen
  obtain ⟨r, hr, hstage⟩ := Option.map_eq_some_iff.1 hended
  obtain ⟨-, hpresent, -⟩ := run_speaks_in_rounds hsteps 1
  obtain ⟨rounds, rest, hsaid, -, hrest⟩ := hpresent r hr
  simp only [Adds, hstage] at hrest
  exact ⟨s, sent, hsteps, hkinds, rounds, hrest ▸ hsaid⟩

end Service

end CompileWatch
