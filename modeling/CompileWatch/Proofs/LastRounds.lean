import CompileWatch.Proofs.Leaving
import CompileWatch.Steps

/-!
# The last rounds of a run

A run that was told to stop finishes the round that it is in, and leaves its loop when it looks at
its token. When its sleep is over as well, it may do either, and then it goes round once more and may
start another attempt. Rounds are one polling interval apart, so that it can do so only as often as a
whole interval passes before it looks at its token.
-/
namespace CompileWatch

/-- What a run does to start an attempt, in this order. -/
inductive RoundAct where
  /-- It announces that the text has changed. -/
  | change
  /-- It announces that its previous attempt is superseded. -/
  | supersession
  /-- It takes the number of the new attempt. -/
  | number
  /-- It raises the floor of the slot. -/
  | raise
  /-- It announces the new attempt. -/
  | start
  deriving DecidableEq

/-- The place of an act in a round. -/
def RoundAct.place : RoundAct → Nat
  | change => 0
  | supersession => 1
  | number => 2
  | raise => 3
  | start => 4

/-- The act of a round that an event of the run `id` tells of. -/
def Event.roundAct? (e : Event) (id : Nat) : Option RoundAct :=
  if e.run = some id then
    match e.kind with
    | .sourceChanged => some .change
    | .attemptSuperseded => some .supersession
    | .attemptStarting => some .start
    | _ => none
  else none

theorem Event.roundAct?_eq_none {e : Event} {id : Nat} (h : e.isOfRound id = false) :
    e.roundAct? id = none := by
  unfold roundAct?
  split
  · next hrun => cases hkind : e.kind <;> simp_all [isOfRound]
  · rfl

namespace Run

/-- How far a run has come in its round: the place of the first act that may still be to come. -/
def roundPlace (r : Run) : Nat :=
  match r.stage with
  | .noticed _ => 0
  | .looking _ | .cancelling .. | .callingOff .. | .superseding .. => 1
  | .numbering _ => 2
  | .raising .. => 3
  | .announcing .. => 4
  | _ => 5

/-- How often an act may still come in the round that the run is in. -/
def toDo (r : Run) (act : RoundAct) : Nat := if r.roundPlace ≤ act.place then 1 else 0

/-- A run that sleeps or has left its loop is in no round. -/
theorem toDo_eq_zero {r : Run} (h : r.roundPlace = 5) (act : RoundAct) : r.toDo act = 0 := by
  unfold toDo
  rw [h]
  cases act <;> rfl

end Run

namespace Service

variable {α : Type} {s t : Service α} {action : Action α} {actions : List (Action α)}
  {sent : List Stamped} {id : Nat} {r r' : Run}

/-! ## The acts of a round -/

/-- The acts of a round that the run `id` performs when `action` leads from `s` to `t`. -/
def actsIn (id : Nat) (s : Service α) (action : Action α) (t : Service α) (sent : List Stamped) :
    List RoundAct :=
  sent.filterMap (·.event.roundAct? id) ++
    if runner? action = some id then
      List.replicate (t.generation - s.generation) .number ++
        if t.slot.floor = s.slot.floor then [] else [.raise]
    else []

/-- The acts of rounds that the run `id` performs in a history, in order. -/
def acts (id : Nat) (s : Service α) (actions : List (Action α)) : List RoundAct :=
  (s.observe (fun u a => (u.step? a).map fun (v, sent) => actsIn id u a v sent) actions).flatten

theorem acts_cons {rest : List (Action α)} (hone : s.step? action = some (t, sent)) :
    s.acts id (action :: rest) = actsIn id s action t sent ++ t.acts id rest := by
  unfold acts
  rw [observe_cons hone, hone]
  rfl

/-- A step that leaves the numbers and the floor alone shows in what is announced. -/
theorem actsIn_of_kept (hgeneration : t.generation = s.generation) (hslot : t.slot = s.slot) :
    actsIn id s action t sent = sent.filterMap (·.event.roundAct? id) := by
  simp [actsIn, hgeneration, hslot]

theorem actsIn_eq_nil (hsent : ∀ e ∈ sent, e.event.isOfRound id = false)
    (hown : runner? action = some id → t.generation = s.generation ∧ t.slot = s.slot) :
    actsIn id s action t sent = [] := by
  have hnone : sent.filterMap (·.event.roundAct? id) = [] :=
    List.filterMap_eq_nil_iff.2 fun e he => Event.roundAct?_eq_none (hsent e he)
  by_cases hrunner : runner? action = some id
  · obtain ⟨hgeneration, hslot⟩ := hown hrunner
    rw [actsIn_of_kept hgeneration hslot, hnone]
  · simp [actsIn, hnone, hrunner]

/-- Does the run `id` look at the text? -/
def isLook (id : Nat) : Action α → Bool
  | .poll k => k = id
  | _ => false

/-- In one step a run performs one act of the round that it is in, or none; a round begins when it
looks at the text. -/
theorem RunStep.actsIn_cases (h : RunStep s r action r' t sent) :
    (actsIn r.id s action t sent = [] ∧
      (isLook r.id action = true ∨ r.roundPlace ≤ r'.roundPlace)) ∨
    ∃ act, actsIn r.id s action t sent = [act] ∧ r.roundPlace ≤ act.place ∧
      act.place < r'.roundPlace := by
  have announced (act : RoundAct) (hkept : t.generation = s.generation ∧ t.slot = s.slot)
      (hsent : sent.filterMap (·.event.roundAct? r.id) = [act])
      (hplace : r.roundPlace ≤ act.place ∧ act.place < r'.roundPlace) :
      ∃ act, actsIn r.id s action t sent = [act] ∧ r.roundPlace ≤ act.place ∧
        act.place < r'.roundPlace :=
    ⟨act, (actsIn_of_kept hkept.1 hkept.2).trans hsent, hplace⟩
  have hrunner := h.runner
  cases h
  case announceChange hstage =>
    exact .inr (announced .change ⟨rfl, rfl⟩ (by simp [Event.roundAct?, runEvent])
      (by simp [Run.roundPlace, RoundAct.place, hstage]))
  case announceSuperseded hstage =>
    exact .inr (announced .supersession ⟨rfl, rfl⟩ (by simp [Event.roundAct?, runEvent])
      (by simp [Run.roundPlace, RoundAct.place, hstage]))
  case announceStart hstage =>
    exact .inr (announced .start ⟨rfl, rfl⟩ (by simp [Event.roundAct?, runEvent])
      (by simp [Run.roundPlace, RoundAct.place, hstage]))
  case number text hstage =>
    refine .inr ⟨.number, ?_, by simp [Run.roundPlace, RoundAct.place, hstage]⟩
    show [] ++ (if _ then List.replicate (s.generation + 1 - s.generation) _ ++
      if s.slot.floor = s.slot.floor then [] else [_] else []) = _
    simp [hrunner]
  case raise text g hstage =>
    have hacts : actsIn r.id s (.proceed r.id)
        ((s.putSlot (s.slot.advance g)).moveRun r.id (.announcing text g)) [] =
          if max s.slot.floor g = s.slot.floor then [] else [.raise] := by
      show [] ++ (if _ then List.replicate (s.generation - s.generation) _ ++
        if max s.slot.floor g = s.slot.floor then [] else [_] else []) = _
      simp [hrunner]
    by_cases hfloor : max s.slot.floor g = s.slot.floor
    · exact .inl ⟨hacts.trans (if_pos hfloor), .inr (by simp [Run.roundPlace, hstage])⟩
    · exact .inr ⟨.raise, hacts.trans (if_neg hfloor),
        by simp [Run.roundPlace, RoundAct.place, hstage]⟩
  case announceGrace | announceEnd =>
    refine .inl ⟨(actsIn_of_kept rfl rfl).trans ?_, .inr ?_⟩
    · simp [Event.roundAct?, runEvent, Event.withElapsed]
    · simp [Run.roundPlace, *]
  case notice | rest | die =>
    exact .inl ⟨actsIn_of_kept rfl rfl, by simp [isLook, Run.roundPlace, *]⟩
  all_goals exact .inl ⟨actsIn_of_kept rfl rfl, .inr (by simp [Run.roundPlace, *])⟩

/-- A run performs each act of a round once, and begins a round when it looks. -/
theorem RunStep.count_actsIn_le (h : RunStep s r action r' t sent) (act : RoundAct) :
    (actsIn r.id s action t sent).count act + r'.toDo act ≤
      r.toDo act + (isLook r.id action).toNat := by
  unfold Run.toDo
  rcases h.actsIn_cases with ⟨hnone, hlook | hplace⟩ | ⟨done, hdone, hfirst, hlast⟩
  · rw [hnone, hlook, List.count_nil, Bool.toNat_true]
    split <;> omega
  · rw [hnone, List.count_nil]
    split <;> split <;> omega
  · rw [hdone, List.count_singleton]
    by_cases hact : done = act
    · subst hact
      rw [if_neg (Nat.not_le.2 hlast), if_pos hfirst]
      split <;> omega
    · rw [if_neg (by simpa using hact)]
      split <;> split <;> omega

/-! ## The pace of a run -/

/-- The tick before which a run does not look at the text again. -/
def due (s : Service α) (r : Run) : Nat :=
  match r.stage with
  | .waiting wake => wake
  | _ => s.nextPoll

/-- How long a run sleeps. -/
def pollTicks (s : Service α) : Nat := s.config.effectivePollInterval.ticks

theorem nextPoll_eq (s : Service α) : s.nextPoll = s.now + s.pollTicks := rfl

theorem Step.nextPoll_le (h : Step s action t sent) : s.nextPoll ≤ t.nextPoll := by
  unfold nextPoll
  rw [h.config]
  exact Nat.add_le_add_right h.now_le _

theorem Step.due_le (h : Step s action t sent) (hstage : r'.stage = r.stage) :
    s.due r ≤ t.due r' := by
  unfold due
  rw [hstage]
  split
  · exact Nat.le_refl _
  · exact h.nextPoll_le

/-- After a step of its own a run is not due before a whole interval has passed. -/
theorem RunStep.due_eq (h : RunStep s r action r' t sent) : t.due r' = s.nextPoll := by
  have hnext : t.nextPoll = s.nextPoll := by
    rw [nextPoll, nextPoll, h.frame.1, h.board.2.2.now]
  cases h
  case rest | launch => rfl
  case glance hstage => simpa [due, hstage] using hnext
  all_goals exact hnext

/-- A run looks at the text only when it is due. -/
theorem RunStep.due_le_now (h : RunStep s r action r' t sent) (hlook : isLook r.id action = true) :
    s.due r ≤ s.now := by
  cases h
  case notice hstage hwake _ | rest hstage hwake _ => simpa [due, hstage] using hwake
  all_goals cases hlook

/-- What one step means to the pace of a run: a look is paid for by an interval, and an act of a
round by a look. -/
structure Paced (id : Nat) (s : Service α) (r : Run) (action : Action α) (t : Service α)
    (r' : Run) (sent : List Stamped) : Prop where
  due_le : t.due r' ≤ t.nextPoll
  pays : s.due r + s.pollTicks * (isLook id action).toNat ≤ t.due r'
  due_le_now : isLook id action = true → s.due r ≤ s.now
  acts_le : ∀ act, (actsIn id s action t sent).count act + r'.toDo act ≤
    r.toDo act + (isLook id action).toNat

theorem Step.paced (h : Step s action t sent) (hs : Signed s) (hr : s.run? id = some r)
    (hdue : s.due r ≤ s.nextPoll) : ∃ r', t.run? id = some r' ∧ Paced id s r action t r' sent := by
  rcases h.own_or_other hs hr with ⟨rfl, r', hr', hrun⟩ | ⟨hother, ⟨r', hr', hstage⟩, hsent⟩
  · have hnext := hrun.due_eq
    refine ⟨r', hr', hnext ▸ h.nextPoll_le, ?_, hrun.due_le_now, hrun.count_actsIn_le⟩
    rw [hnext]
    cases hlook : isLook r.id action with
    | true =>
      rw [Bool.toNat_true, Nat.mul_one, nextPoll_eq]
      exact Nat.add_le_add_right (hrun.due_le_now hlook) _
    | false => rwa [Bool.toNat_false, Nat.mul_zero, Nat.add_zero]
  · have hlook : isLook id action = false := by
      refine Bool.eq_false_iff.2 fun hlook => hother ?_
      cases action with
      | poll k => exact congrArg some (of_decide_eq_true hlook)
      | _ => cases hlook
    have hacts : actsIn id s action t sent = [] :=
      actsIn_eq_nil (fun e he => not_isOfRound_of_engineStarted (hsent e he))
        fun hown => absurd hown hother
    have htoDo (act : RoundAct) : r'.toDo act = r.toDo act := by
      unfold Run.toDo Run.roundPlace
      rw [hstage]
    refine ⟨r', hr', ?_, ?_, fun h => absurd h (by simp [hlook]), fun act => ?_⟩
    · unfold due
      rw [hstage]
      split
      · next hwaiting =>
        rw [due, hwaiting] at hdue
        exact Nat.le_trans hdue h.nextPoll_le
      · exact Nat.le_refl _
    · rw [hlook, Bool.toNat_false, Nat.mul_zero, Nat.add_zero]
      exact h.due_le hstage
    · rw [hacts, htoDo, List.count_nil, Nat.zero_add]
      exact Nat.le_add_right _ _

theorem Reachable.due_le (h : s.Reachable) (hr : s.run? id = some r) : s.due r ≤ s.nextPoll := by
  obtain ⟨config, sink, text, hs⟩ := h
  refine hs.induct_reached (motive := fun u => ∀ r, u.run? id = some r → u.due r ≤ u.nextPoll)
    (fun {u v a sent} hsu hu hstep r' hr' => ?_) (fun r hr => nomatch hr) r hr
  have hcases := Step.of_step? hstep
  cases hr : u.run? id with
  | some r =>
    obtain ⟨r'', hr'', hpaced⟩ :=
      hcases.paced (Reachable.signed ⟨config, sink, text, hsu⟩) hr (hu r hr)
    cases hr'.symm.trans hr''
    exact hpaced.due_le
  | none =>
    rcases hcases.run? id with hsame | ⟨r₀, hr₀, -⟩ | ⟨r₀, -, -, hr₀, -⟩ | ⟨-, -, hnew⟩
    · cases hr.symm.trans (hsame.symm.trans hr')
    · cases hr.symm.trans hr₀
    · cases hr.symm.trans hr₀
    · cases hr'.symm.trans hnew
      exact hcases.nextPoll_le

/-! ## Round after round -/

/-- What a run does in a history is paid for by its looks at the text: each act of a round comes at
most once for each of them, and once for the round that the run is in. -/
theorem Reachable.count_acts_le (hs : s.Reachable) (hr : s.run? id = some r)
    (hsteps : s.steps? actions = some (t, sent)) (act : RoundAct) :
    (s.acts id actions).count act ≤ r.toDo act + actions.countP (isLook id) := by
  induction actions generalizing s r sent with
  | nil => exact Nat.zero_le _
  | cons a rest ih =>
    obtain ⟨u, first, more, hone, hrest⟩ := steps?_cons_eq_some hsteps
    obtain ⟨r', hr', hpaced⟩ := (Step.of_step? hone).paced hs.signed hr (hs.due_le hr)
    have hlater := ih (hs.step hone) hr' hrest
    have hnow := hpaced.acts_le act
    rw [acts_cons hone, List.count_append, countP_cons_toNat]
    omega

/-- From one look to the next there is a whole polling interval. -/
theorem Reachable.looks_le (hs : s.Reachable) (hr : s.run? id = some r)
    (hsteps : s.steps? actions = some (t, sent)) {n : Nat}
    (hnow : t.now < s.due r + s.pollTicks * n) : actions.countP (isLook id) ≤ n := by
  induction actions generalizing s r sent n with
  | nil => exact Nat.zero_le n
  | cons a rest ih =>
    obtain ⟨u, first, more, hone, hrest⟩ := steps?_cons_eq_some hsteps
    have hcases := Step.of_step? hone
    obtain ⟨r', hr', hpaced⟩ := hcases.paced hs.signed hr (hs.due_le hr)
    have hpoll : u.pollTicks = s.pollTicks := by
      rw [pollTicks, pollTicks, hcases.config]
    have hlater {m : Nat} (hm : t.now < u.due r' + s.pollTicks * m) :
        rest.countP (isLook id) ≤ m := ih (hs.step hone) hr' hrest (by rwa [hpoll])
    have hpays := hpaced.pays
    rw [countP_cons_toNat]
    cases hlook : isLook id a with
    | false =>
      rw [hlook, Bool.toNat_false, Nat.mul_zero, Nat.add_zero] at hpays
      rw [Bool.toNat_false, Nat.zero_add]
      exact hlater (Nat.lt_of_lt_of_le hnow (Nat.add_le_add_right hpays _))
    | true =>
      have hdue := hpaced.due_le_now hlook
      have htime : s.now ≤ t.now := Reaches.now_le ⟨a :: rest, sent, hsteps⟩
      rw [hlook, Bool.toNat_true, Nat.mul_one] at hpays
      cases n with
      | zero => omega
      | succ m =>
        rw [Nat.mul_succ] at hnow
        have hrestLooks := hlater (m := m) (by omega)
        rw [Bool.toNat_true]
        omega

/-- Whatever happens after a run has left its loop, it performs no act of a round. -/
theorem Reachable.acts_eq_nil (hs : s.Reachable) (hr : s.run? id = some r)
    (hleft : r.hasLeft = true) (hsteps : s.steps? actions = some (t, sent)) :
    s.acts id actions = [] := by
  induction actions generalizing s r sent with
  | nil => rfl
  | cons a rest ih =>
    obtain ⟨u, first, more, hone, hrest⟩ := steps?_cons_eq_some hsteps
    obtain ⟨⟨r', hr', hleft'⟩, hround, hkept⟩ := (Step.of_step? hone).hasLeft hs.signed hr hleft
    rw [acts_cons hone, actsIn_eq_nil hround hkept, ih (hs.step hone) hr' hleft' hrest]
    rfl

theorem Step.told (h : Step s action t sent) (hr : s.run? id = some r)
    (htold : r.cancelled = true) : ∃ r', t.run? id = some r' ∧ r'.cancelled = true := by
  rcases h.run? id with hsame | ⟨r₀, -, hr'⟩ | ⟨r₀, r', -, hr₀, hr', hrun⟩ | ⟨-, hnone, -⟩
  · exact ⟨r, hsame.trans hr, htold⟩
  · exact ⟨_, hr', rfl⟩
  · cases hr.symm.trans hr₀
    exact ⟨r', hr', by cases hrun <;> exact htold⟩
  · cases hr.symm.trans hnone

/-- A run that was told to stop can leave its loop whenever it sleeps. -/
theorem exists_leave (hr : t.run? id = some r) (htold : r.cancelled = true) {wake : Nat}
    (hstage : r.stage = .waiting wake) :
    ∃ u gone, t.step? (.leave id) = some (u, []) ∧ u.run? id = some gone ∧
      gone.hasLeft = true := by
  have hid : r.id = id := id_of_run? hr
  refine ⟨t.moveRun id (.draining t.now), { r with stage := .draining t.now }, ?_, ?_, rfl⟩
  · simp [step?, silent, hr, leave?, hstage, htold, hid]
  · simp [run?_moveRun, hr]

/-- **The last rounds of a run.** Whatever happens after a run was told to stop, it performs each
act of a round at most once for each of its looks at the text, and once for the round that it is in.
It has at most `n` looks before `n` whole polling intervals are over since it was due: none before
it is due, and so it starts nothing if it sleeps when it is told and leaves its loop before its
sleep is over. It can leave whenever it sleeps, and once it has left, it performs no act of a round
any more. -/
theorem told_run_starts_no_more_than_it_looks (hs : s.Reachable) (hr : s.run? id = some r)
    (htold : r.cancelled = true) (hsteps : s.steps? actions = some (t, sent)) :
    (∀ act, (s.acts id actions).count act ≤ r.toDo act + actions.countP (isLook id)) ∧
    (∀ n, t.now < s.due r + s.pollTicks * n → actions.countP (isLook id) ≤ n) ∧
    ∃ r', t.run? id = some r' ∧ r'.cancelled = true ∧
      (∀ wake, r'.stage = .waiting wake → ∃ u gone, t.step? (.leave id) = some (u, []) ∧
        u.run? id = some gone ∧ gone.hasLeft = true) ∧
      (r'.hasLeft = true → ∀ later u more, t.steps? later = some (u, more) →
        t.acts id later = []) := by
  have hst : s.Reaches t := ⟨actions, sent, hsteps⟩
  obtain ⟨r', hr', htold'⟩ : ∃ r', t.run? id = some r' ∧ r'.cancelled = true :=
    hst.induct (motive := fun u => ∃ r', u.run? id = some r' ∧ r'.cancelled = true)
      (fun ⟨r₁, hr₁, htold₁⟩ hone => (Step.of_step? hone).told hr₁ htold₁) ⟨r, hr, htold⟩
  refine ⟨hs.count_acts_le hr hsteps, fun n hnow => hs.looks_le hr hsteps hnow, r', hr', htold',
    fun wake hstage => exists_leave hr' htold' hstage, fun hleft later u more hlater => ?_⟩
  exact (hs.reaches hst).acts_eq_nil hr' hleft hlater

/-- The sleep of the first run is over when it is told to stop. -/
def toldWhenDue : List (Action Nat) := [.start, .tick, .stop, .tellRun 0]

/-- The first run looks at a new text and starts an attempt. -/
def oneMoreRound : List (Action Nat) := .poll 1 :: List.replicate 6 (.proceed 1)

/-- The run goes round once, and then sleeps. Before it sleeps on for a whole interval it has no
other look, and it can leave at once. -/
theorem told_run_starts_no_more_than_it_looks_once : ∃ s t : Service Nat, ∃ r sent told,
    (ofConfig {} {} "a").steps? toldWhenDue = some (s, sent) ∧ s.run? 1 = some r ∧
    r.cancelled = true ∧ s.steps? oneMoreRound = some (t, told) ∧
    s.acts 1 oneMoreRound = [.change, .number, .raise, .start] ∧
    (∀ act, (s.acts 1 oneMoreRound).count act ≤ 1) ∧
    ∃ u gone, t.step? (.leave 1) = some (u, []) ∧ u.run? 1 = some gone ∧
      gone.hasLeft = true := by
  -- both histories are run in one go
  have hrun : ((ofConfig {} {} "a" : Service Nat).steps? toldWhenDue).bind (fun (s, _) =>
      (s.run? 1).bind fun r => (s.steps? oneMoreRound).map fun (t, _) =>
        (r.cancelled, s.due r, s.pollTicks, r.roundPlace, s.acts 1 oneMoreRound, t.now,
          (t.run? 1).map (·.stage))) =
      some (true, 1, 1, 5, [.change, .number, .raise, .start], 1, some (.waiting 2)) := rfl
  obtain ⟨⟨s, sent⟩, hfirst, hrest⟩ := Option.bind_eq_some_iff.1 hrun
  obtain ⟨r, hr, hrest⟩ := Option.bind_eq_some_iff.1 hrest
  obtain ⟨⟨t, told⟩, hsecond, hseen⟩ := Option.map_eq_some_iff.1 hrest
  simp only [Prod.mk.injEq] at hseen
  obtain ⟨htold, hdue, hpoll, hplace, hround, hnow, hstage⟩ := hseen
  obtain ⟨hacts, hlooks, r', hr', -, hleaves, -⟩ :=
    told_run_starts_no_more_than_it_looks ⟨{}, {}, "a", toldWhenDue, sent, hfirst⟩ hr htold hsecond
  have honce : oneMoreRound.countP (isLook 1) ≤ 1 := by
    apply hlooks 1
    omega
  have hasleep : r'.stage = .waiting 2 := by
    rw [hr'] at hstage
    exact Option.some.inj hstage
  refine ⟨s, t, r, sent, told, hfirst, hr, htold, hsecond, hround, fun act => ?_,
    hleaves 2 hasleep⟩
  have hact := hacts act
  rw [Run.toDo_eq_zero hplace] at hact
  omega

/-- The first run is told to stop when it has looked at a new text. -/
def toldInRound : List (Action Nat) := [.start, .tick, .poll 1, .stop, .tellRun 0]

/-- A run that is told to stop in the middle of a round goes on with it: it announces a change, takes
a number, raises the floor and announces an attempt. A run that is told when its sleep is over could
leave its loop, but it may look at the text all the same, and do all of this too. -/
theorem told_run_starts_attempt :
    (∃ s t : Service Nat, ∃ sent told,
      (ofConfig {} {} "a").steps? toldInRound = some (s, sent) ∧
      (s.run? 1).map (·.cancelled) = some true ∧
      s.steps? (List.replicate 6 (.proceed 1)) = some (t, told) ∧
      s.acts 1 (List.replicate 6 (.proceed 1)) = [.change, .number, .raise, .start]) ∧
    ∃ s t : Service Nat, ∃ sent told,
      (ofConfig {} {} "a").steps? toldWhenDue = some (s, sent) ∧
      (s.run? 1).map (·.cancelled) = some true ∧ (s.step? (.leave 1)).isSome = true ∧
      s.steps? oneMoreRound = some (t, told) ∧
      told.map (fun e => (e.event.kind, e.event.run)) =
        [(.sourceChanged, some 1), (.attemptStarting, some 1)] ∧
      s.generation = 0 ∧ t.generation = 1 ∧ s.slot.floor = 0 ∧ t.slot.floor = 1 :=
  ⟨⟨_, _, _, _, rfl, rfl, rfl, rfl⟩, _, _, _, _, rfl, rfl, rfl, rfl, rfl, rfl, rfl, rfl, rfl⟩

end Service

end CompileWatch
