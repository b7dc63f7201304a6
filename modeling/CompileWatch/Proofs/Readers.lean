import CompileWatch.Proofs.Batches
import CompileWatch.Proofs.Sight

/-!
# Retrievals only read

A retrieval looks at the slot and the clock, and writes to nothing but its own record, the sink and
the bus. So the calls of a history can be left out, all or some: what is left of the history can
happen, in the same states apart from the calls that were left out and the numbers of the events.
-/
namespace CompileWatch

/-! ## What a call comes to -/

namespace Retrieval

variable {α : Type}

/-- What a call comes to that finds this in the slot at its last look. -/
def answer (code : String) (timeout : Span) : Option (Artifact α) → RetrievalResult α
  | some a => resultOf a
  | none => .error (.timedOut code timeout)

/-- Has the call still to look at the slot before it can settle? -/
def hasToLook (r : Retrieval α) : Bool :=
  match r.stage with
  | .arming | .checking | .parked _ => true
  | _ => false

/-- The call goes by what it finds in the slot, if it finds the same at each look. -/
def GoesWith (found : Option (Artifact α)) (r : Retrieval α) : Prop :=
  match r.stage with
  | .arming | .checking | .parked _ | .abandoned => True
  | .testing | .overdue _ => found = none
  | .matched a _ => found = some a
  | .reporting result _ _ | .settled result _ => result = answer r.code r.timeout found

/-- It is settled what the call returns, and how long it has waited. -/
def IsDecided (result : RetrievalResult α) (waited : Nat) (r : Retrieval α) : Prop :=
  match r.stage with
  | .matched a w => resultOf a = result ∧ w = waited
  | .overdue w => .error (.timedOut r.code r.timeout) = result ∧ w = waited
  | .reporting x w _ | .settled x w => x = result ∧ w = waited
  | _ => False

variable {r : Retrieval α} {found : Option (Artifact α)} {now waited : Nat} {slot : Slot α}
  {poll : Span} {next : Retrieval.Move α} {result : RetrievalResult α}

theorem GoesWith.of_hasToLook (h : r.hasToLook = true) : r.GoesWith found := by
  unfold hasToLook at h
  unfold GoesWith
  split at h <;> simp_all

theorem GoesWith.move (h : r.GoesWith found) (hmove : r.MoveStep now slot poll next)
    (hfound : slot.find? r.code = found) : next.retrieval.GoesWith found := by
  cases hmove with
  | arm _ | park _ _ | parkUntil _ _ _ => exact True.intro
  | find _ hsome => exact hfound.symm.trans hsome
  | miss _ hnone => exact hfound.symm.trans hnone
  | giveUp hs _ _ =>
    simp only [GoesWith, hs] at h
    exact h
  | tellFound hs =>
    simp only [GoesWith, hs] at h
    subst h
    exact rfl
  | tellLate hs =>
    simp only [GoesWith, hs] at h
    subst h
    exact rfl
  | settle hs =>
    simp only [GoesWith, hs] at h
    exact h

theorem GoesWith.of_result? (h : r.GoesWith found) (hresult : r.result? = some (result, waited)) :
    result = answer r.code r.timeout found := by
  unfold result? at hresult
  split at hresult
  · next hs =>
    cases hresult
    simpa only [GoesWith, hs] using h
  · cases hresult

theorem IsDecided.move (h : r.IsDecided result waited) (hmove : r.MoveStep now slot poll next) :
    next.retrieval.IsDecided result waited := by
  cases hmove with
  | tellFound hs | tellLate hs | settle hs =>
    simp only [IsDecided, hs] at h
    exact h
  | arm hs | find hs _ | miss hs _ | park hs _ | giveUp hs _ _ | parkUntil hs _ _ =>
    simp only [IsDecided, hs] at h

theorem IsDecided.ne_parked (h : r.IsDecided result waited) (wake : Nat) :
    r.stage ≠ .parked wake := by
  intro hs
  simp only [IsDecided, hs] at h

/-- At most so many steps of its own are left to a call of which it is settled what it returns. -/
def stepsToReturn (r : Retrieval α) : Nat :=
  match r.stage with
  | .matched .. | .overdue _ => 2
  | .reporting .. => 1
  | _ => 0

theorem IsDecided.returns_or_moves (h : r.IsDecided result waited) (now : Nat) (slot : Slot α)
    (poll : Span) : r.result? = some (result, waited) ∨ ∃ next, r.MoveStep now slot poll next ∧
      next.retrieval.stepsToReturn < r.stepsToReturn := by
  unfold IsDecided at h
  split at h
  · next hs => exact .inr ⟨_, .tellFound hs, by simp [stepsToReturn, hs]⟩
  · next hs => exact .inr ⟨_, .tellLate hs, by simp [stepsToReturn, hs]⟩
  · next hs => exact .inr ⟨_, .settle hs, by simp [stepsToReturn, hs]⟩
  · next hs =>
    obtain ⟨rfl, rfl⟩ := h
    exact .inl (by simp [result?, hs])
  · exact h.elim

theorem stepsToReturn_le (r : Retrieval α) : r.stepsToReturn ≤ 2 := by
  unfold stepsToReturn
  split <;> decide

theorem exists_stage_of_canWake (h : r.canWake now = true) : ∃ wake, r.stage = .parked wake := by
  unfold canWake at h
  split at h
  · next wake hs => exact ⟨wake, hs⟩
  · cases h

theorem IsDecided.of_result? (h : r.IsDecided result waited) {x : RetrievalResult α × Nat}
    (hresult : r.result? = some x) : x = (result, waited) := by
  unfold result? at hresult
  split at hresult
  · next hs =>
    cases hresult
    simp only [IsDecided, hs] at h
    rw [h.1, h.2]
  · cases hresult

end Retrieval

namespace Service

variable {α : Type} {s t : Service α} {keep : Nat → Bool} {i : Nat} {r : Retrieval α}

/-! ## Leaving calls out -/

variable {action : Action α} {actions : List (Action α)} {sent : List Stamped} {s₀ : Service α}

/-- The events that calls do not send. -/
def outside (sent : List Stamped) : List Event := (sent.map (·.event)).filter (!·.isOfCall)

theorem outside_append (first second : List Stamped) :
    outside (first ++ second) = outside first ++ outside second := by
  simp [outside]

theorem outside_congr {told : List Stamped} (h : told.map (·.event) = sent.map (·.event)) :
    outside told = outside sent := by
  rw [outside, h, outside]

/-- Is the action a step of a call? -/
def IsOfCall : Action α → Prop
  | .retrieve .. | .ask _ | .wake _ | .abandon _ => True
  | _ => False

theorem isOfCall_of_kept? (h : s.kept? keep action = none) : IsOfCall action := by
  cases action with
  | retrieve _ _ _ | ask _ | wake _ | abandon _ => exact True.intro
  | _ => cases h

theorem kept?_all (s : Service α) (action : Action α) :
    s.kept? (fun _ => true) action = some action := by
  cases action <;> simp [kept?, rank_all]

theorem only_of_board {b : Board α} (h : b.only keep = s.board.only keep) :
    ({ s with board := b } : Service α).only keep = s.only keep := by
  show { s with board := b.only keep, attempts := s.attempts.map Attempt.unstamped, nextSeq := 0 } = _
  rw [h]
  rfl

/-- A call that is left out is not seen. -/
theorem only_of_left_out (h : s.kept? keep action = none) (hone : s.step? action = some (t, sent)) :
    t.only keep = s.only keep := by
  have out {keeps : Bool} {a : Action α} (hout : (if keeps then some a else none) = none) :
      keeps = false := by
    cases keeps with
    | false => rfl
    | true => cases hout
  cases Step.of_step? hone with
  | retrieve => exact only_of_board (Board.call_only_of_not (out h) _ _ _)
  | ask hask => exact only_of_board (Board.only_of_ask? (out h) hask)
  | @report i board event hask =>
    have hboard := only_of_board (Board.only_of_ask? (out h) hask)
    exact hboard
  | wake hwake => exact only_of_board (Board.only_of_wake? (out h) hwake)
  | abandon habandon => exact only_of_board (Board.only_of_abandon? (out h) habandon)
  | run _ hrun => cases hrun <;> cases h
  | attempt _ hattempt => cases hattempt <;> cases h
  | _ => cases h

/-- Of a step of a call nothing is heard outside. -/
theorem outside_of_isOfCall (hs : s.Reachable) (h : IsOfCall action)
    (hone : s.step? action = some (t, sent)) : outside sent = [] := by
  have hstep := Step.of_step? hone
  have hsent : ∀ e ∈ sent, e.event.isOfCall = true := by
    intro e he
    cases hstep with
    | report hask => exact (Step.report hask).isOfCall_of_ask hs e he
    | run _ hrun => cases hrun <;> cases h
    | attempt _ hattempt => cases hattempt <;> cases h
    | start _ => cases h
    | _ => cases he
  refine List.filter_eq_nil_iff.2 fun event hevent => ?_
  obtain ⟨e, he, rfl⟩ := List.mem_map.1 hevent
  simp [hsent e he]

theorem core_only (keep : Nat → Bool) (s : Service α) : (s.only keep).core = s.core := by
  show { s with
    board := (s.board.only keep).only fun _ => false
    attempts := (s.attempts.map Attempt.unstamped).map Attempt.unstamped
    nextSeq := 0 } = _
  rw [map_unstamped_twice]
  simp [core, only, Board.only, pick_none]

/-- No step of a call changes anything else. -/
theorem core_of_isOfCall (h : IsOfCall action) (hone : s.step? action = some (t, sent)) :
    t.core = s.core := by
  refine only_of_left_out ?_ hone
  cases action with
  | retrieve _ _ _ | ask _ | wake _ | abandon _ => rfl
  | _ => cases h

/-- Two services that are seen alike do the same. -/
theorem exists_step?_of_only {s' : Service α} (h : s'.only (fun _ => true) = s.only keep)
    {action' : Action α} (hkept : s.kept? keep action = some action')
    (hone : s.step? action = some (t, sent)) :
    ∃ t' sent', s'.step? action' = some (t', sent') ∧ t'.only (fun _ => true) = t.only keep ∧
      sent'.map (·.event) = sent.map (·.event) := by
  have hseen := (step?_only (kept?_all s' action')).symm.trans (h ▸ step?_only hkept)
  rw [hone, Option.map_some] at hseen
  obtain ⟨⟨t', sent'⟩, hone', heq⟩ := Option.map_eq_some_iff.1 hseen
  obtain ⟨ht, hsent⟩ := Prod.mk.inj heq
  exact ⟨t', sent', hone', ht, hsent⟩

/-- An action that is left, with all that is there besides the calls when it happens. -/
def scene? (keep : Nat → Bool) (s : Service α) (action : Action α) :
    Option (Action α × Service α) :=
  (s.kept? keep action).map (·, s.core)

/-- The `i`-th call returns: when, and with which result. -/
def returns? (i : Nat) (s : Service α) : Action α → Option (Nat × RetrievalResult α)
  | .ask j => if j = i then
      (s.call? i).bind fun r =>
        match r.stage with
        | .reporting result _ _ => some (s.now, result)
        | _ => none
    else none
  | _ => none

/-- The service `s'` is seen as what is left of the service `s`. -/
structure Alike (keep : Nat → Bool) (s s' : Service α) : Prop where
  /-- It is the same apart from the calls, -/
  core : s'.core = s.core
  /-- and has the calls that are made, as they are. -/
  call {i : Nat} : keep i = true → s'.call? (rank keep i) = s.call? i

theorem alike_of_only {s' : Service α} (h : s'.only (fun _ => true) = s.only keep) :
    Alike keep s s' where
  core := by rw [← core_only (fun _ => true) s', h, core_only]
  call {i} hi := by
    have hboard : (s'.board.only fun _ => true).retrievals = (s.board.only keep).retrievals :=
      congrArg (·.board.retrievals) h
    rw [Board.only_all] at hboard
    rw [call?, call?, ← Board.getElem?_only hi s.board, ← hboard]

theorem Alike.now {s' : Service α} (h : Alike keep s s') : s'.now = s.now := by
  have hnow : s'.core.now = s.core.now := congrArg Service.now h.core
  exact hnow

/-- A call that is made returns where it did. -/
theorem Alike.returns? {s' : Service α} (h : Alike keep s s') {i : Nat} (hi : keep i = true)
    {action' : Action α} (hkept : s.kept? keep action = some action') :
    s'.returns? (rank keep i) action' = s.returns? i action := by
  cases action with
  | ask j =>
    obtain ⟨hj, rfl⟩ := of_ite hkept
    by_cases hij : j = i
    · subst hij
      simp only [Service.returns?, if_true, h.call hi, h.now]
    · have hrank : rank keep j ≠ rank keep i := fun heq => hij (Nat.count_injective hj hi heq)
      simp only [Service.returns?, if_neg hij, if_neg hrank]
  | retrieve _ _ _ | wake _ | abandon _ =>
    obtain ⟨-, rfl⟩ := of_ite hkept
    rfl
  | _ => cases hkept; rfl

theorem returns?_of_left_out {i : Nat} (hi : keep i = true) (h : s.kept? keep action = none) :
    s.returns? i action = none := by
  cases action with
  | ask j =>
    refine if_neg fun hij => ?_
    simp [kept?, hij, hi] at h
  | _ => rfl

/-- What is left of a history when some calls are left out, against the history itself. -/
structure Leaves (keep : Nat → Bool) (s₀ : Service α) (actions : List (Action α)) (s : Service α)
    (sent : List Stamped) (s' : Service α) (sent' : List Stamped) : Prop where
  steps : s₀.steps? (s₀.observe (kept? keep) actions) = some (s', sent')
  only : s'.only (fun _ => true) = s.only keep
  /-- The runs and the attempts say the same, in the same order. -/
  said : outside sent' = outside sent
  /-- What happens besides the steps of calls happens in the same states. -/
  scenes : s₀.observe (scene? fun _ => true) (s₀.observe (kept? keep) actions) =
    s₀.observe (scene? keep) actions
  /-- Each call that is made returns when it did, and with the same result. -/
  returned {i : Nat} : keep i = true →
    s₀.observe (returns? (rank keep i)) (s₀.observe (kept? keep) actions) =
      s₀.observe (returns? i) actions

theorem Leaves.step {s' : Service α} {told more sent' : List Stamped} {first : List (Action α)}
    (h : Leaves keep s₀ first s told s' sent') (hs : s.Reachable)
    (hfirst : s₀.steps? first = some (s, told)) (hone : s.step? action = some (t, more)) :
    ∃ t' more', Leaves keep s₀ (first ++ [action]) t (told ++ more) t' (sent' ++ more') := by
  have hkeptnow : s₀.observe (kept? keep) (first ++ [action]) =
      s₀.observe (kept? keep) first ++ (s.kept? keep action).toList := observe_snoc hfirst hone
  have hscene : s₀.observe (scene? keep) (first ++ [action]) =
      s₀.observe (scene? keep) first ++ (s.scene? keep action).toList := observe_snoc hfirst hone
  have hreturns (i : Nat) : s₀.observe (Service.returns? i) (first ++ [action]) =
      s₀.observe (Service.returns? i) first ++ (s.returns? i action).toList :=
    observe_snoc hfirst hone
  cases hkept : s.kept? keep action with
  | none =>
    have hnone : s.scene? keep action = none := by simp [scene?, hkept]
    rw [hkept, Option.toList_none, List.append_nil] at hkeptnow
    rw [hnone, Option.toList_none, List.append_nil] at hscene
    refine ⟨s', [], ?_⟩
    rw [List.append_nil]
    exact {
      steps := hkeptnow ▸ h.steps
      only := h.only.trans (only_of_left_out hkept hone).symm
      said := by
        rw [outside_append, outside_of_isOfCall hs (isOfCall_of_kept? hkept) hone, List.append_nil]
        exact h.said
      scenes := by rw [hkeptnow, hscene, h.scenes]
      returned := fun {i} hi => by
        rw [hkeptnow, hreturns, returns?_of_left_out hi hkept, Option.toList_none, List.append_nil]
        exact h.returned hi }
  | some action' =>
    obtain ⟨t', more', hone', honly, hsaid⟩ := exists_step?_of_only h.only hkept hone
    have halike := alike_of_only h.only
    rw [hkept, Option.toList_some] at hkeptnow
    refine ⟨t', more', ?_⟩
    exact {
      steps := by
        rw [hkeptnow]
        exact steps?_append_eq_some h.steps (by simp [steps?_cons, hone'])
      only := honly
      said := by rw [outside_append, outside_append, h.said, outside_congr hsaid]
      scenes := by
        rw [hkeptnow, hscene, observe_snoc h.steps hone', h.scenes]
        simp only [scene?, kept?_all, hkept, Option.map_some, halike.core]
      returned := fun {i} hi => by
        rw [hkeptnow, hreturns, observe_snoc h.steps hone', h.returned hi,
          halike.returns? hi hkept] }

theorem exists_leaves (hs₀ : s₀.Reachable) (hcalls : s₀.board.retrievals = #[])
    (hsteps : s₀.steps? actions = some (s, sent)) (keep : Nat → Bool) :
    ∃ s' sent', Leaves keep s₀ actions s sent s' sent' := by
  refine steps?_induct (motive := fun actions s sent =>
      ∃ s' sent', Leaves keep s₀ actions s sent s' sent')
    (fun {first u v a told more} hfirst hone ih => ?_) ⟨s₀, [], ?_⟩ hsteps
  · obtain ⟨s', sent', hleaves⟩ := ih
    obtain ⟨t', more', ht'⟩ :=
      hleaves.step (hs₀.reaches ⟨first, told, hfirst⟩) hfirst hone
    exact ⟨t', sent' ++ more', ht'⟩
  · have hboard : (s₀.board.only fun _ => true) = s₀.board.only keep := by
      simp [Board.only, hcalls, pick]
    exact {
      steps := rfl
      only := by rw [only, only, hboard]
      said := rfl
      scenes := rfl
      returned := fun _ => rfl }

/-! ## The same slot, the same answer -/

theorem find?_of_latest (h : t.slot.latest = s.slot.latest) (code : String) :
    t.slot.find? code = s.slot.find? code := by
  unfold Slot.find?
  rw [h]

/-- A call that goes with what the slot holds does so as long as the slot takes nothing. -/
theorem Step.goesWith (h : Step s action t sent) (hr : s.call? i = some r)
    (hgoes : r.GoesWith (s.slot.find? r.code)) (hnone : s.accepted? action = none) :
    ∃ r', t.call? i = some r' ∧ r'.GoesWith (t.slot.find? r'.code) := by
  cases h.callStep hr with
  | still hsame hstill _ => exact ⟨r, hsame, find?_of_latest hstill.latest r.code ▸ hgoes⟩
  | tick _ ht => subst ht; exact ⟨r, hr, hgoes⟩
  | publish hacc _ _ _ _ => cases hnone.symm.trans hacc
  | notify hnotified hstill =>
    refine ⟨_, hnotified, ?_⟩
    rw [(SameCall.notify r).code, find?_of_latest hstill.latest]
    unfold Retrieval.GoesWith
    rw [r.stage_notify, (SameCall.notify r).code, (SameCall.notify r).timeout]
    exact hgoes
  | move _ hmove hmoved hstill =>
    refine ⟨_, hmoved, ?_⟩
    rw [hmove.kept.1, find?_of_latest hstill.latest]
    exact hgoes.move hmove rfl
  | wake _ _ hput _ | abandon _ hput _ => exact ⟨_, hput, True.intro⟩

/-- In a stretch of a history in which the slot takes nothing, a call that looks at the slot goes by
what it holds throughout. -/
theorem goesWith_of_steps? (hsteps : s.steps? actions = some (t, sent))
    (hquiet : s.observe accepted? actions = [])
    (hlooks : ∀ r, s.call? i = some r → r.GoesWith (s.slot.find? r.code))
    {r' : Retrieval α} (hr' : t.call? i = some r') :
    r'.GoesWith (s.slot.find? r'.code) := by
  induction actions generalizing s sent with
  | nil => cases hsteps; exact hlooks r' hr'
  | cons a rest ih =>
    obtain ⟨u, first, more, hone, hrest⟩ := steps?_cons_eq_some hsteps
    rw [observe_cons hone, List.append_eq_nil_iff, Option.toList_eq_nil_iff] at hquiet
    have hstep := Step.of_step? hone
    have hlatest : u.slot.latest = s.slot.latest := by
      have hslot := hstep.slot.1
      rwa [hquiet.1, Option.none_or] at hslot
    rw [← find?_of_latest hlatest]
    refine ih hrest hquiet.2 fun r hr => ?_
    cases hbefore : s.call? i with
    | none =>
      have harming := hstep.call?_of_none hbefore hr
      exact .of_hasToLook (by simp [Retrieval.hasToLook, harming])
    | some r₀ =>
      obtain ⟨r₁, hr₁, hgoes⟩ := hstep.goesWith hbefore (hlooks r₀ hbefore) hquiet.1
      cases hr.symm.trans hr₁
      exact hgoes

/-- What a call returns is settled with its last look, whatever the slot takes afterwards. -/
theorem Step.isDecided (h : Step s action t sent) (hr : s.call? i = some r)
    {result : RetrievalResult α} {waited : Nat} (hdecided : r.IsDecided result waited) :
    ∃ r', t.call? i = some r' ∧ r'.IsDecided result waited := by
  cases h.callStep hr with
  | still hsame _ _ | publish _ hsame _ _ _ => exact ⟨r, hsame, hdecided⟩
  | tick _ ht => subst ht; exact ⟨r, hr, hdecided⟩
  | notify hnotified _ =>
    refine ⟨_, hnotified, ?_⟩
    unfold Retrieval.IsDecided
    rw [r.stage_notify, (SameCall.notify r).code, (SameCall.notify r).timeout]
    exact hdecided
  | move _ hmove hmoved _ => exact ⟨_, hmoved, hdecided.move hmove⟩
  | wake _ hcan _ _ =>
    obtain ⟨wake, hs⟩ := Retrieval.exists_stage_of_canWake hcan
    exact absurd hs (hdecided.ne_parked wake)
  | abandon haction _ _ =>
    subst haction
    obtain ⟨wake, hs⟩ := Retrieval.exists_stage_of_isParked (h.isParked_of_abandon hr)
    exact absurd hs (hdecided.ne_parked wake)

theorem Reaches.isDecided (h : s.Reaches t) (hr : s.call? i = some r)
    {result : RetrievalResult α} {waited : Nat} (hdecided : r.IsDecided result waited) :
    ∃ r', t.call? i = some r' ∧ r'.IsDecided result waited :=
  h.induct (motive := fun u => ∃ r', u.call? i = some r' ∧ r'.IsDecided result waited)
    (fun hu hone => hu.elim fun _ hr' => (Step.of_step? hone).isDecided hr'.1 hr'.2)
    ⟨r, hr, hdecided⟩

theorem exists_returned_of_call? (hr : s.call? i = some r) {result : RetrievalResult α}
    {waited : Nat} (hdecided : r.IsDecided result waited) : ∃ n ≤ r.stepsToReturn, ∃ t told r',
      s.steps? (List.replicate n (.ask i)) = some (t, told) ∧ t.call? i = some r' ∧
        r'.result? = some (result, waited) := by
  generalize hlength : r.stepsToReturn = length
  induction length using Nat.strongRecOn generalizing s r with
  | ind length ih =>
    rcases hdecided.returns_or_moves s.now s.slot s.board.poll with hreturned | ⟨next, hmove, hless⟩
    · exact ⟨0, Nat.zero_le _, s, [], r, rfl, hr, hreturned⟩
    · obtain ⟨u, first, hone, hmoved, -⟩ := exists_ask hr hmove.next?
      obtain ⟨n, hn, t, more, r', hrest, hr', hresult⟩ :=
        ih _ (hlength ▸ hless) hmoved (hdecided.move hmove) rfl
      refine ⟨n + 1, by omega, t, first ++ more, r', ?_, hr', hresult⟩
      rw [List.replicate_succ, steps?_cons, hone]
      simp [hrest]

/-- A call of which it is settled what it returns does so by at most two steps of its own. -/
theorem exists_returned (hr : s.call? i = some r) {result : RetrievalResult α} {waited : Nat}
    (hdecided : r.IsDecided result waited) : ∃ n ≤ 2, ∃ t told r',
      s.steps? (List.replicate n (.ask i)) = some (t, told) ∧ t.call? i = some r' ∧
        r'.result? = some (result, waited) := by
  obtain ⟨n, hn, ht⟩ := exists_returned_of_call? hr hdecided
  exact ⟨n, Nat.le_trans hn r.stepsToReturn_le, ht⟩

/-! ## Reading only -/

/-- Retrievals only read: what that means in a history from `s₀` to `s` in which `sent` is sent. -/
structure OnlyRead (s₀ : Service α) (actions : List (Action α)) (s : Service α)
    (sent : List Stamped) : Prop where
  /-- Whichever calls are made, what is left of the history can happen, and leads to what is left of
  the state. -/
  erase (keep : Nat → Bool) : ∃ s' sent', Leaves keep s₀ actions s sent s' sent' ∧ Alike keep s s'
  /-- No step of a call changes anything but the calls and the sink, nor is it heard outside. -/
  apart {action : Action α} {t : Service α} {told : List Stamped} : IsOfCall action →
    s.step? action = some (t, told) → t.core = s.core ∧ outside told = []
  /-- A call that finds an artifact leaves it in the slot and returns what it says, by two more
  steps of its own at most and whatever happens in between; and so do all that find it. -/
  share {i : Nat} {r : Retrieval α} {a : Artifact α} {t u : Service α} {told : List Stamped} :
    s.call? i = some r → r.stage = .checking → s.slot.find? r.code = some a →
    s.step? (.ask i) = some (t, told) → t.slot = s.slot ∧ (t.Reaches u →
      (∀ r' x, u.call? i = some r' → r'.result? = some x →
        x = (Retrieval.resultOf a, s.now - r.begun)) ∧
      ∃ n ≤ 2, ∃ v more r', u.steps? (List.replicate n (.ask i)) = some (v, more) ∧
        v.call? i = some r' ∧ r'.result? = some (Retrieval.resultOf a, s.now - r.begun))
  /-- While the slot takes nothing, all calls for a text with a timeout that look at it return the
  same. -/
  repeats {i : Nat} {later : List (Action α)} {t : Service α} {told : List Stamped}
      {r : Retrieval α} {result : RetrievalResult α} {waited : Nat} :
    s.steps? later = some (t, told) → s.observe accepted? later = [] →
    (∀ q, s.call? i = some q → q.hasToLook = true) → t.call? i = some r →
    r.result? = some (result, waited) →
    result = Retrieval.answer r.code r.timeout (s.slot.find? r.code)

/-- Calls read the slot and nothing else depends on them: they can be left out of any history, all
or some, and neither the runs, the attempts, the slot nor the other calls are any different. -/
theorem retrievals_only_read {config : Config} {sink : MessageSink} {text : String}
    (hsteps : (ofConfig config sink text : Service α).steps? actions = some (s, sent)) :
    OnlyRead (ofConfig config sink text) actions s sent := by
  have hs₀ : (ofConfig config sink text : Service α).Reachable := ⟨config, sink, text, .refl _⟩
  have hs : s.Reachable := ⟨config, sink, text, actions, sent, hsteps⟩
  refine
    { erase := fun keep => ?_
      apart := fun hcall hone => ⟨core_of_isOfCall hcall hone, outside_of_isOfCall hs hcall hone⟩
      share := fun {i r a t u told} hr hchecking hfound hone => ?_
      repeats := fun hlater hquiet hlooks hr hresult => ?_ }
  · obtain ⟨s', sent', hleaves⟩ := exists_leaves hs₀ rfl hsteps keep
    exact ⟨s', sent', hleaves, alike_of_only hleaves.only⟩
  · have hstep := Step.of_step? hone
    refine ⟨?_, fun hreach => ?_⟩
    · have hcall : IsOfCall (.ask i : Action α) := True.intro
      have hslot : t.core.slot = s.core.slot := by rw [core_of_isOfCall hcall hone]
      exact hslot
    · obtain ⟨move, hmove, hmoved⟩ := hstep.of_ask hr
      have hdecided : move.retrieval.IsDecided (Retrieval.resultOf a) (s.now - r.begun) := by
        cases hmove with
        | find _ hfound' =>
          cases hfound.symm.trans hfound'
          exact ⟨rfl, rfl⟩
        | miss _ hnone => cases hfound.symm.trans hnone
        | _ => simp_all
      obtain ⟨r', hr', hstill⟩ := hreach.isDecided hmoved hdecided
      refine ⟨fun r'' x hr'' hx => ?_, exists_returned hr' hstill⟩
      cases hr'.symm.trans hr''
      exact hstill.of_result? hx
  · refine Retrieval.GoesWith.of_result? ?_ hresult
    exact goesWith_of_steps? hlater hquiet (fun q hq => .of_hasToLook (hlooks q hq)) hr

/-- Two calls for the same text look at the slot before either of them returns. -/
def overlappingCalls : List (Action Nat) :=
  [Action.start, Action.tick, Action.poll 1] ++ List.replicate 6 (Action.proceed 1) ++
    [Action.take 1, Action.compiled 1 (.value 5), Action.finish 1,
      Action.retrieve "first" "a" (.ofMillis 9), Action.retrieve "second" "a" (.ofMillis 9),
      Action.ask 0, Action.ask 1, Action.ask 1, Action.finish 1, Action.ask 0, Action.ask 1,
      Action.ask 0, Action.ask 0, Action.ask 1]

/-- What is left of it when the first call is not made. -/
def secondCallAlone : List (Action Nat) :=
  [Action.start, Action.tick, Action.poll 1] ++ List.replicate 6 (Action.proceed 1) ++
    [Action.take 1, Action.compiled 1 (.value 5), Action.finish 1,
      Action.retrieve "second" "a" (.ofMillis 9), Action.ask 0, Action.ask 0, Action.finish 1,
      Action.ask 0, Action.ask 0]

theorem retrievals_only_read_overlapping : ∃ s : Service Nat, ∃ sent,
    (ofConfig {} {} "a").steps? overlappingCalls = some (s, sent) ∧
    s.board.retrievals.toList.map (·.result?) =
      [some (.ok (.compiled "a" 1 5), 0), some (.ok (.compiled "a" 1 5), 0)] ∧
    (ofConfig {} {} "a").observe (kept? (· == 1)) overlappingCalls = secondCallAlone ∧
    OnlyRead (ofConfig {} {} "a") overlappingCalls s sent := by
  have hrun : ((ofConfig {} {} "a").steps? overlappingCalls).map
      (fun (s, _) => s.board.retrievals.toList.map (·.result?)) =
      some [some (.ok (.compiled "a" 1 5), 0), some (.ok (.compiled "a" 1 5), 0)] := by
    with_unfolding_all exact rfl
  have hkept : (ofConfig {} {} "a").observe (kept? (· == 1)) overlappingCalls =
      secondCallAlone := by
    with_unfolding_all exact rfl
  obtain ⟨⟨s, sent⟩, hsteps, hseen⟩ := Option.map_eq_some_iff.1 hrun
  exact ⟨s, sent, hsteps, hseen, hkept, retrievals_only_read hsteps⟩

end Service

end CompileWatch
