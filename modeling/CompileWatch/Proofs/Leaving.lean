import CompileWatch.Proofs.Senders
import CompileWatch.Proofs.Stopping

/-!
# How a run leaves its loop

What a step means to one run. A run that was told to stop leaves its loop when it looks at its
token; once it has left the loop, it starts nothing any more.
-/
namespace CompileWatch

/-- Is the run out of its loop, so that it looks at the text no more? -/
def Run.hasLeft (r : Run) : Bool :=
  match r.stage with
  | .draining _ | .overdue _ | .givingUp _ | .reportingGrace _ | .closing _ | .ended _
  | .dead _ => true
  | _ => false

/-- Is the event one of those with which the run `id` starts an attempt? -/
def Event.isOfRound (e : Event) (id : Nat) : Bool :=
  e.run = some id &&
    (e.kind = .sourceChanged || e.kind = .attemptSuperseded || e.kind = .attemptStarting)

namespace Service

variable {α : Type} {s t : Service α} {action : Action α} {sent : List Stamped} {id : Nat}

/-! ## What a step means to one run -/

/-- The run that takes a step of its own with an action. -/
def runner? : Action α → Option Nat
  | .poll id | .pollFails id _ | .leave id | .drained id | .graceEnds id | .glance id
  | .proceed id => some id
  | _ => none

theorem RunStep.runner {r r' : Run} (h : RunStep s r action r' t sent) :
    runner? action = some r.id := by
  cases h <;> rfl

/-- A run takes a step of its own, or what happens leaves it where it is and is not about it. -/
theorem Step.own_or_other (h : Step s action t sent) (hs : Signed s) {r : Run}
    (hr : s.run? id = some r) :
    (r.id = id ∧ ∃ r', t.run? id = some r' ∧ RunStep s r action r' t sent) ∨
      (runner? action ≠ some id ∧ (∃ r', t.run? id = some r' ∧ r'.stage = r.stage) ∧
        ∀ e ∈ sent, e.event.run = some id → e.event.kind = .engineStarted) := by
  by_cases hown : runner? action = some id
  · left
    cases h
    case run r₀ r₁ hr₀ h =>
      obtain rfl : r₀.id = id := Option.some.inj (h.runner.symm.trans hown)
      cases hr.symm.trans hr₀
      exact ⟨rfl, r₁, by simp [h.run? hr₀], h⟩
    case attempt ha h => cases h <;> cases hown
    all_goals cases hown
  · refine .inr ⟨hown, ?_, fun e he hrun => ?_⟩
    · rcases h.run? id with hsame | ⟨r₀, hr₀, htold⟩ | ⟨r₀, r₁, hid, -, -, hrun⟩ | ⟨-, hnone, -⟩
      · exact ⟨r, hsame.trans hr, rfl⟩
      · cases hr.symm.trans hr₀
        exact ⟨_, htold, rfl⟩
      · exact absurd (hid ▸ hrun.runner) hown
      · cases hr.symm.trans hnone
    · cases h.sentBy hs he with
      | run _ h hsent => exact absurd (h.runner.trans (hsent.symm.trans hrun)) hown
      | start _ hevent => rw [hevent]; rfl
      | panic _ _ _ hevent | last _ _ _ hevent => rw [hevent] at hrun; cases hrun
      | retrieval _ hnone => cases hnone.symm.trans hrun

/-! ## Out of the loop -/

theorem RunStep.hasLeft {r r' : Run} (h : RunStep s r action r' t sent)
    (hleft : r.hasLeft = true) : r'.hasLeft = true := by
  cases h
  case glance => exact hleft
  all_goals simp_all [Run.hasLeft]

theorem RunStep.of_hasLeft {r r' : Run} (h : RunStep s r action r' t sent)
    (hleft : r.hasLeft = true) :
    t.generation = s.generation ∧ t.slot = s.slot ∧
      ∀ e ∈ sent, e.event.isOfRound r.id = false := by
  cases h
  case announceGrace | announceEnd =>
    refine ⟨rfl, rfl, fun e he => ?_⟩
    cases List.mem_singleton.1 he
    simp [Event.isOfRound, runEvent, Event.withElapsed]
  case drained | graceEnds | glance | cancelLast | cancelNone | callOffLast | callOffNone =>
    exact ⟨rfl, rfl, fun e he => absurd he List.not_mem_nil⟩
  all_goals simp_all [Run.hasLeft]

theorem not_isOfRound_of_engineStarted {e : Event} (h : e.run = some id → e.kind = .engineStarted) :
    e.isOfRound id = false := by
  by_cases hrun : e.run = some id <;> simp [Event.isOfRound, hrun, h]

/-- A run that has left its loop does not come back to it, and starts nothing. -/
theorem Step.hasLeft (h : Step s action t sent) (hs : Signed s) {r : Run}
    (hr : s.run? id = some r) (hleft : r.hasLeft = true) :
    (∃ r', t.run? id = some r' ∧ r'.hasLeft = true) ∧
      (∀ e ∈ sent, e.event.isOfRound id = false) ∧
      (runner? action = some id → t.generation = s.generation ∧ t.slot = s.slot) := by
  rcases h.own_or_other hs hr with ⟨rfl, r', hr', hrun⟩ | ⟨hother, ⟨r', hr', hstage⟩, hsent⟩
  · obtain ⟨hgeneration, hslot, hround⟩ := hrun.of_hasLeft hleft
    exact ⟨⟨r', hr', hrun.hasLeft hleft⟩, hround, fun _ => ⟨hgeneration, hslot⟩⟩
  · refine ⟨⟨r', hr', ?_⟩, fun e he => not_isOfRound_of_engineStarted (hsent e he),
      fun hown => absurd hown hother⟩
    unfold Run.hasLeft at hleft ⊢
    rwa [hstage]

/-- Whatever happens after a run has left its loop, it starts nothing any more: it announces no
change, no attempt and no end of one, takes no number and leaves the slot alone. -/
theorem left_run_starts_nothing {actions : List (Action α)} (hs : s.Reachable) {r : Run}
    (hr : s.run? id = some r) (hleft : r.hasLeft = true)
    (hsteps : s.steps? actions = some (t, sent)) :
    (∀ e ∈ sent, e.event.isOfRound id = false) ∧
      s.Along (fun u action => runner? action = some id → ∀ v told,
        u.step? action = some (v, told) → v.generation = u.generation ∧ v.slot = u.slot)
        actions := by
  induction actions generalizing s r sent with
  | nil =>
    cases hsteps
    exact ⟨fun e he => absurd he List.not_mem_nil, True.intro⟩
  | cons a rest ih =>
    obtain ⟨u, first, more, hone, hrest⟩ := steps?_cons_eq_some hsteps
    obtain ⟨⟨r', hr', hleft'⟩, hround, hnumbers⟩ := (Step.of_step? hone).hasLeft hs.signed hr hleft
    obtain ⟨hlater, halong⟩ := ih (hs.step hone) hr' hleft' hrest
    have hsent := sent_of_steps?_cons hsteps hone hrest
    refine ⟨fun e he => ?_, along_cons (fun hown v told hv => ?_) hone halong⟩
    · rcases List.mem_append.1 (hsent ▸ he) with hnow | hthen
      · exact hround e hnow
      · exact hlater e hthen
    · cases hone.symm.trans hv
      exact hnumbers hown

/-! ## The clock and the settings -/

/-- The clock does not go back. -/
theorem Step.now_le (h : Step s action t sent) : s.now ≤ t.now := by
  cases h with
  | tick => exact Nat.le_succ s.now
  | ask hask | report hask =>
    obtain ⟨-, -, -, -, hnow, -⟩ := Board.of_ask? hask
    exact Nat.le_of_eq hnow.symm
  | wake hwake =>
    obtain ⟨r, -, -, rfl⟩ := Board.of_wake? hwake
    exact Nat.le_refl s.now
  | abandon habandon =>
    obtain ⟨r, -, rfl⟩ := Board.of_abandon? habandon
    exact Nat.le_refl s.now
  | run _ h => exact Nat.le_of_eq h.board.2.2.now.symm
  | attempt _ h =>
    cases h with
    | move _ =>
      rw [now, now, board_afterMove]
      split <;> exact Nat.le_refl _
    | _ => exact Nat.le_refl _
  | _ => exact Nat.le_refl s.now

theorem Reaches.now_le (h : s.Reaches t) : s.now ≤ t.now :=
  h.induct (motive := fun u => s.now ≤ u.now)
    (fun hle hone => Nat.le_trans hle (Step.of_step? hone).now_le) (Nat.le_refl _)

theorem Reaches.config (h : s.Reaches t) : t.config = s.config :=
  h.induct (motive := fun u => u.config = s.config)
    (fun hu hone => (Step.of_step? hone).config.trans hu) rfl

end Service

end CompileWatch
