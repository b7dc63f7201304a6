import CompileWatch.Proofs.Leaving
import CompileWatch.Proofs.Relay

/-!
# Who holds a run

Runs are numbered one after the other. The newest run is held until a stop takes it or the service
is dropped, and each run is taken at most once. `Custody` says of all runs at all times where they
are: a run that is not held any more was taken by a stop, or it died while it was held, or the
service was dropped.
-/
namespace CompileWatch

/-- Did the loop of the run die? -/
def Run.isDead (r : Run) : Bool :=
  match r.stage with
  | .dead _ => true
  | _ => false

namespace Service

variable {α : Type} {s t : Service α} {action : Action α} {sent : List Stamped} {id : Nat}

/-! ## Runs are numbered one after the other -/

/-- The identities of the runs, in the order in which they were started. -/
def runIds (s : Service α) : List Nat := s.runs.map (·.id)

theorem runIds_updateRun (s : Service α) (id : Nat) {f : Run → Run}
    (hf : ∀ r : Run, r.id = id → (f r).id = id) : (s.updateRun id f).runIds = s.runIds := by
  simp only [runIds, updateRun, List.map_map]
  refine List.map_congr_left fun r _ => ?_
  simp only [Function.comp]
  split
  · next h => rw [hf r h, h]
  · rfl

theorem runIds_moveRun (s : Service α) (id : Nat) (stage : Run.Stage) :
    (s.moveRun id stage).runIds = s.runIds :=
  s.runIds_updateRun id fun _ h => h

theorem runIds_tell (s : Service α) (id : Nat) :
    (s.updateRun id ({ · with cancelled := true })).runIds = s.runIds :=
  s.runIds_updateRun id fun _ h => h

theorem RunStep.runIds {r r' : Run} (h : RunStep s r action r' t sent) : t.runIds = s.runIds := by
  -- the previous attempt of a run is forgotten together with a move
  have forgotten (u : Service α) (stage : Run.Stage) :
      ((u.updateRun r.id ({ · with previous := none })).moveRun r.id stage).runIds = u.runIds :=
    (runIds_moveRun _ _ _).trans (u.runIds_updateRun r.id fun _ h => h)
  cases h
  case glance => rfl
  case launch text g _ =>
    exact ((s.launched r.id text g).looked r.id (s.attempts.length + 1)).runIds_updateRun r.id
      fun _ h => h
  case forget | displace | callOffNone => exact forgotten s _
  case callOffLast => exact forgotten (s.callOff _) _
  all_goals exact runIds_moveRun _ r.id _

/-- Only a start adds a run, and numbers it by the runs that there are. -/
theorem Step.runIds (h : Step s action t sent) :
    t.runIds = s.runIds ∨ t.runIds = s.runIds ++ [s.runs.length + 1] := by
  cases h with
  | run _ h => exact .inl h.runIds
  | attempt _ h =>
    cases h with
    | move _ => rw [afterMove_eq]; exact .inl rfl
    | _ => exact .inl rfl
  | start _ => exact .inr (by simp [Service.runIds, stamped])
  | @tellRun n id call _ _ _ => exact .inl (s.runIds_tell id)
  | @drop id _ => exact .inl (s.runIds_tell id)
  | _ => exact .inl rfl

theorem length_runIds (s : Service α) : s.runIds.length = s.runs.length := List.length_map _

theorem Reachable.runIds (h : s.Reachable) : s.runIds = List.range' 1 s.runs.length := by
  obtain ⟨config, sink, text, hs⟩ := h
  refine hs.induct (motive := fun u => u.runIds = List.range' 1 u.runs.length)
    (fun {u v a sent} hu hstep => ?_) rfl
  rw [← length_runIds] at hu ⊢
  rcases (Step.of_step? hstep).runIds with hsame | hnew
  · rw [hsame]
    exact hu
  · rw [hnew, ← length_runIds, List.length_append, List.length_singleton, List.range'_concat,
      ← hu, Nat.one_mul, Nat.add_comm 1]

/-- Exactly the numbers up to the number of runs are identities of runs. -/
theorem Reachable.exists_run?_iff (h : s.Reachable) :
    (∃ r, s.run? id = some r) ↔ 1 ≤ id ∧ id ≤ s.runs.length := by
  have hmem : (∃ r, s.run? id = some r) ↔ id ∈ s.runIds := by
    constructor
    · rintro ⟨r, hr⟩
      exact List.mem_map.2 ⟨r, List.mem_of_find?_eq_some hr, id_of_run? hr⟩
    · intro hid
      obtain ⟨r, hr, rfl⟩ := List.mem_map.1 hid
      exact Option.isSome_iff_exists.1 (List.find?_isSome.2 ⟨r, hr, decide_eq_true rfl⟩)
  rw [hmem, h.runIds, List.mem_range'_1]
  omega

/-- The number of the next run is free. -/
theorem Reachable.run?_next (h : s.Reachable) : s.run? (s.runs.length + 1) = none := by
  cases hr : s.run? (s.runs.length + 1) with
  | none => rfl
  | some r =>
    have hle := (h.exists_run?_iff.1 ⟨r, hr⟩).2
    omega

/-! ## The handle -/

/-- The runs that stops have taken, in the order in which they were taken. -/
def takenRuns (s : Service α) : List Nat := s.stops.filterMap (·.run)

theorem mem_takenRuns : id ∈ s.takenRuns ↔ ∃ call ∈ s.stops, call.run = some id :=
  List.mem_filterMap

/-- A stop that moves on has taken what it took. -/
theorem takenRuns_moveStop {n : Nat} {call : StopCall} (hcall : s.stops[n]? = some call)
    (stage : StopCall.Stage) : (s.moveStop n call stage).takenRuns = s.takenRuns := by
  have hruns : (s.stops.set n { call with stage }).map (·.run) = s.stops.map (·.run) := by
    refine List.ext_getElem? fun m => ?_
    by_cases hm : n = m
    · subst hm
      have hlt : n < s.stops.length := (List.getElem?_eq_some_iff.1 hcall).1
      rw [List.getElem?_map, List.getElem?_set_self hlt, List.getElem?_map, hcall]
      rfl
    · simp [List.getElem?_set_ne hm]
  have hmap (l : List StopCall) : l.filterMap (·.run) = (l.map (·.run)).filterMap id := by
    simp [List.filterMap_map]
  exact (hmap _).trans ((congrArg _ hruns).trans (hmap s.stops).symm)

/-- What a step does to the handle, one constructor for each case. -/
inductive HandStep (s : Service α) (action : Action α) (t : Service α) : Prop
  | idle : t.handle = s.handle → t.owned = s.owned → t.takenRuns = s.takenRuns →
      t.runs.length = s.runs.length → HandStep s action t
  | start : action = .start → s.isRunning = false → t.handle = some (s.runs.length + 1) →
      t.owned = s.owned → t.takenRuns = s.takenRuns → t.runs.length = s.runs.length + 1 →
      HandStep s action t
  | stop {id : Nat} : s.handle = some id → t.handle = none → t.owned = s.owned →
      t.takenRuns = s.takenRuns ++ [id] → t.runs.length = s.runs.length → HandStep s action t
  | drop : t.handle = none → t.owned = false → t.takenRuns = s.takenRuns →
      t.runs.length = s.runs.length → HandStep s action t

theorem RunStep.hand {r r' : Run} (h : RunStep s r action r' t sent) :
    t.handle = s.handle ∧ t.owned = s.owned := by
  cases h <;> exact ⟨rfl, rfl⟩

theorem AttemptStep.hand {a a' : Attempt α} (h : AttemptStep s a action a' t sent) :
    t.handle = s.handle ∧ t.owned = s.owned := by
  cases h with
  | move _ => rw [afterMove_eq]; exact ⟨rfl, rfl⟩
  | _ => exact ⟨rfl, rfl⟩

theorem Step.handStep (h : Step s action t sent) : HandStep s action t := by
  cases h with
  | run _ h =>
    exact .idle h.hand.1 h.hand.2 (by rw [takenRuns, h.frame.2, takenRuns]) h.length_runs
  | attempt _ h =>
    exact .idle h.hand.1 h.hand.2 (by rw [takenRuns, h.frame.2, takenRuns]) h.length_runs
  | start hrun => exact .start rfl hrun rfl rfl rfl (by simp [stamped])
  | stopNone hnone => exact .idle rfl rfl (by simp [takenRuns]) rfl
  | stop hsome => exact .stop hsome rfl rfl (by simp [takenRuns]) rfl
  | @tellRun n id call hcall _ _ =>
    have hcall' : (s.updateRun id ({ · with cancelled := true })).stops[n]? = some call := hcall
    exact .idle rfl rfl (takenRuns_moveStop hcall' _) (by simp [moveStop, updateRun])
  | stopReturns hcall _ _ _ _ => exact .idle rfl rfl (takenRuns_moveStop hcall _) rfl
  | dropNone hnone => exact .drop hnone rfl rfl rfl
  | drop _ => exact .drop rfl rfl rfl (by simp [updateRun])
  | _ => exact .idle rfl rfl rfl rfl

/-- A run is cancelled by the stop that took it or by the drop of the service, so not while it is
held. -/
theorem Step.cancelled (h : Step s action t sent) {r' : Run} (hr' : t.run? id = some r')
    (hc : r'.cancelled = true) :
    (∃ r, s.run? id = some r ∧ r.cancelled = true) ∨ id ∈ s.takenRuns ∨ t.owned = false := by
  have told (k : Nat) (hk : k ∈ s.takenRuns ∨ t.owned = false)
      (ht : t.run? id = (s.updateRun k ({ · with cancelled := true })).run? id) :
      (∃ r, s.run? id = some r ∧ r.cancelled = true) ∨ id ∈ s.takenRuns ∨ t.owned = false := by
    rw [ht, run?_tell] at hr'
    by_cases hid : id = k
    · exact .inr (hid ▸ hk)
    · rw [if_neg hid] at hr'
      exact .inl ⟨r', hr', hc⟩
  cases h with
  | @run r₀ r₁ _ _ _ hr₀ h =>
    left
    rw [h.run? hr₀] at hr'
    split at hr'
    · next hid =>
      cases hr'
      refine ⟨r₀, hid ▸ hr₀, ?_⟩
      cases h <;> exact hc
    · exact ⟨r', hr', hc⟩
  | attempt _ h => exact .inl ⟨r', (h.run? id).symm.trans hr', hc⟩
  | start _ =>
    have hnew := s.run?_append { id := s.runs.length + 1, stage := .waiting s.nextPoll } id
    cases hr : s.run? id with
    | some r =>
      rw [hr, Option.some_or] at hnew
      cases hr'.symm.trans hnew
      exact .inl ⟨_, rfl, hc⟩
    | none =>
      rw [hr, Option.none_or] at hnew
      have hr'' := hnew.symm.trans hr'
      split at hr''
      · cases hr''; cases hc
      · cases hr''
  | @tellRun n k call hcall _ hrun =>
    exact told k (.inl (mem_takenRuns.2 ⟨call, List.mem_of_getElem? hcall, hrun⟩)) rfl
  | @drop k _ => exact told k (.inr rfl) rfl
  | _ => exact .inl ⟨r', hr', hc⟩

/-- A start that makes a run makes the one with the next number, and says so. -/
theorem Step.of_newRun (h : Step s .start t sent) (hs : s.Reachable)
    (hrun : s.isRunning = false) :
    t.run? (s.runs.length + 1) =
        some { id := s.runs.length + 1, stage := .waiting s.nextPoll } ∧
      sent = [⟨s.nextSeq, runEvent .engineStarted (s.runs.length + 1)⟩] := by
  cases h with
  | startAgain hagain => exact absurd (hrun.symm.trans hagain) Bool.false_ne_true
  | start _ =>
    refine ⟨?_, rfl⟩
    have hnew := s.run?_append { id := s.runs.length + 1, stage := .waiting s.nextPoll }
      (s.runs.length + 1)
    rw [hs.run?_next, Option.none_or, if_pos rfl] at hnew
    exact hnew
  | run _ h => cases h
  | attempt _ h => cases h

/-! ## Where a run is -/

theorem RunStep.isDead {r r' : Run} (h : RunStep s r action r' t sent) : r.isDead = false := by
  cases h <;> simp [Run.isDead, *]

/-- A run leaves its loop when it sees that it is to stop, or it dies. -/
theorem RunStep.left {r r' : Run} (h : RunStep s r action r' t sent)
    (hr : r.hasLeft = true → r.cancelled = true ∨ r.isDead = true)
    (hleft : r'.hasLeft = true) : r'.cancelled = true ∨ r'.isDead = true := by
  cases h
  case die => exact .inr rfl
  case leave hc => exact .inl hc
  all_goals simp_all [Run.hasLeft, Run.isDead]

/-- What holds of the runs and of who holds them at all times. -/
structure Custody (s : Service α) : Prop where
  /-- The newest run is the one that is held, as long as it is. -/
  held {id : Nat} : s.handle = some id → id = s.runs.length ∧ s.owned = true ∧
    ∃ r, s.run? id = some r ∧ r.cancelled = false
  /-- A run that is held by nobody was taken by a stop or dropped with the service, or it died. -/
  given {id : Nat} {r : Run} : s.run? id = some r → s.handle = some id ∨ id ∈ s.takenRuns ∨
    s.owned = false ∨ r.isDead = true
  /-- A stop takes a run from the handle. -/
  took {id : Nat} : id ∈ s.takenRuns → id ≤ s.runs.length ∧ s.handle ≠ some id
  /-- No run is taken twice. -/
  once : s.takenRuns.Nodup
  /-- A run is told to stop by who took it. -/
  told {id : Nat} {r : Run} : s.run? id = some r → r.cancelled = true →
    id ∈ s.takenRuns ∨ s.owned = false
  /-- A run leaves its loop when it was told to stop, or it dies. -/
  left {id : Nat} {r : Run} : s.run? id = some r → r.hasLeft = true →
    r.cancelled = true ∨ r.isDead = true

theorem HandStep.mem_takenRuns (h : HandStep s action t) (hid : id ∈ s.takenRuns) :
    id ∈ t.takenRuns := by
  cases h with
  | idle _ _ htaken _ => exact htaken ▸ hid
  | start _ _ _ _ htaken _ => exact htaken ▸ hid
  | stop _ _ _ htaken _ => exact htaken ▸ List.mem_append_left _ hid
  | drop _ _ htaken _ => exact htaken ▸ hid

theorem HandStep.owned (h : HandStep s action t) (howned : s.owned = false) : t.owned = false := by
  cases h with
  | idle _ hsame _ _ => exact hsame.trans howned
  | start _ _ _ hsame _ _ => exact hsame.trans howned
  | stop _ _ hsame _ _ => exact hsame.trans howned
  | drop _ hdropped _ _ => exact hdropped

/-- Where a run is held that is not running, it has died. -/
theorem Custody.isDead (h : Custody s) (hrun : s.isRunning = false) {r : Run}
    (hheld : s.handle = some id) (hr : s.run? id = some r) : r.isDead = true := by
  obtain ⟨-, -, r₀, hr₀, hc⟩ := h.held hheld
  cases hr.symm.trans hr₀
  have hover : r.isOver = true := by simpa [isRunning, hheld, hr, hc] using hrun
  have hleft : r.hasLeft = true := by
    unfold Run.isOver at hover
    unfold Run.hasLeft
    split at hover <;> simp_all
  rcases h.left hr hleft with hcancelled | hdead
  · exact absurd (hc.symm.trans hcancelled) Bool.false_ne_true
  · exact hdead

theorem Step.isDead (h : Step s action t sent) {r : Run} (hr : s.run? id = some r)
    (hdead : r.isDead = true) : ∃ r', t.run? id = some r' ∧ r'.isDead = true := by
  rcases h.run? id with hsame | ⟨r₀, hr₀, htold⟩ | ⟨r₀, r₁, -, hr₀, -, hrun⟩ | ⟨-, hnone, -⟩
  · exact ⟨r, hsame.trans hr, hdead⟩
  · cases hr.symm.trans hr₀
    exact ⟨_, htold, hdead⟩
  · cases hr.symm.trans hr₀
    exact absurd (hrun.isDead.symm.trans hdead) Bool.false_ne_true
  · cases hr.symm.trans hnone

/-- Only a service that was not dropped can be started. -/
theorem owned_of_start (h : s.step? .start = some (t, sent)) : s.owned = true := by
  simp only [step?, Option.ite_none_right_eq_some] at h
  exact h.1

theorem Custody.held_step (h : Custody s) (hs : s.Reachable)
    (hone : s.step? action = some (t, sent)) (hheld : t.handle = some id) :
    id = t.runs.length ∧ t.owned = true ∧ ∃ r, t.run? id = some r ∧ r.cancelled = false := by
  have hstep := Step.of_step? hone
  cases hstep.handStep with
  | idle hhandle howned htaken hlength =>
    -- the run was held before, so that nobody has told it to stop
    rw [hhandle] at hheld
    obtain ⟨hid, hown, r, hr, hc⟩ := h.held hheld
    obtain ⟨r', hr'⟩ := hstep.exists_run? hr
    refine ⟨hid.trans hlength.symm, howned.trans hown, r', hr', ?_⟩
    cases hc' : r'.cancelled with
    | false => rfl
    | true =>
      rcases hstep.cancelled hr' hc' with ⟨r₀, hr₀, hc₀⟩ | htook | hdropped
      · cases hr.symm.trans hr₀
        exact absurd (hc.symm.trans hc₀) Bool.false_ne_true
      · exact absurd hheld (h.took htook).2
      · exact absurd (hdropped.symm.trans (howned.trans hown)) Bool.false_ne_true
  | start hstart hrun hnew howned _ hlength =>
    cases hnew.symm.trans hheld
    subst hstart
    have hfound := (hstep.of_newRun hs hrun).1
    exact ⟨hlength.symm, howned.trans (owned_of_start hone), _, hfound, rfl⟩
  | stop _ hnone _ _ _ => cases hnone.symm.trans hheld
  | drop hnone _ _ _ => cases hnone.symm.trans hheld

theorem Custody.given_step (h : Custody s) (hstep : Step s action t sent) {r' : Run}
    (hr' : t.run? id = some r') : t.handle = some id ∨ id ∈ t.takenRuns ∨ t.owned = false ∨
      r'.isDead = true := by
  have hhand := hstep.handStep
  cases hr : s.run? id with
  | none =>
    have hlength := hstep.length_runs_of_new hr hr'
    cases hhand with
    | start _ _ hnew _ _ _ =>
      rcases hstep.run? id with hsame | ⟨r₀, hr₀, -⟩ | ⟨r₀, -, -, hr₀, -⟩ | ⟨hid, -, -⟩
      · cases hr'.symm.trans (hsame.trans hr)
      · cases hr.symm.trans hr₀
      · cases hr.symm.trans hr₀
      · exact .inl (hid ▸ hnew)
    | idle _ _ _ hsame | drop _ _ _ hsame => omega
    | stop _ _ _ _ hsame => omega
  | some r =>
    have dead (hdead : r.isDead = true) : r'.isDead = true := by
      obtain ⟨r₁, hr₁, hdead'⟩ := hstep.isDead hr hdead
      cases hr'.symm.trans hr₁
      exact hdead'
    rcases h.given hr with hheld | htook | hdropped | hdead
    · cases hhand with
      | idle hhandle _ _ _ => exact .inl (hhandle.trans hheld)
      | start _ hrun _ _ _ _ => exact .inr (.inr (.inr (dead (h.isDead hrun hheld hr))))
      | stop hsome _ _ htaken _ =>
        cases hsome.symm.trans hheld
        exact .inr (.inl (htaken ▸ List.mem_append_right _ List.mem_cons_self))
      | drop _ howned _ _ => exact .inr (.inr (.inl howned))
    · exact .inr (.inl (hhand.mem_takenRuns htook))
    · exact .inr (.inr (.inl (hhand.owned hdropped)))
    · exact .inr (.inr (.inr (dead hdead)))

theorem Custody.took_step (h : Custody s) (hstep : Step s action t sent)
    (hid : id ∈ t.takenRuns) : id ≤ t.runs.length ∧ t.handle ≠ some id := by
  cases hstep.handStep with
  | idle hhandle _ htaken hlength =>
    rw [hhandle, hlength]
    exact h.took (htaken ▸ hid)
  | start _ _ hnew _ htaken hlength =>
    have hle := (h.took (htaken ▸ hid)).1
    refine ⟨by omega, fun hheld => ?_⟩
    cases hnew.symm.trans hheld
    omega
  | stop hsome hnone _ htaken hlength =>
    rw [hnone, hlength]
    rw [htaken, List.mem_append, List.mem_singleton] at hid
    refine ⟨?_, nofun⟩
    rcases hid with hold | rfl
    · exact (h.took hold).1
    · exact Nat.le_of_eq (h.held hsome).1
  | drop hnone _ htaken hlength =>
    rw [hnone, hlength]
    exact ⟨(h.took (htaken ▸ hid)).1, nofun⟩

theorem Custody.once_step (h : Custody s) (hstep : Step s action t sent) :
    t.takenRuns.Nodup := by
  cases hstep.handStep with
  | idle _ _ htaken _ => exact htaken ▸ h.once
  | start _ _ _ _ htaken _ => exact htaken ▸ h.once
  | stop hsome _ _ htaken _ =>
    rw [htaken, ← List.concat_eq_append]
    exact List.Nodup.concat (fun hmem => (h.took hmem).2 hsome) h.once
  | drop _ _ htaken _ => exact htaken ▸ h.once

theorem Custody.told_step (h : Custody s) (hstep : Step s action t sent) {r' : Run}
    (hr' : t.run? id = some r') (hc : r'.cancelled = true) :
    id ∈ t.takenRuns ∨ t.owned = false := by
  have hhand := hstep.handStep
  rcases hstep.cancelled hr' hc with ⟨r, hr, hc⟩ | htook | hdropped
  · rcases h.told hr hc with htook | hdropped
    · exact .inl (hhand.mem_takenRuns htook)
    · exact .inr (hhand.owned hdropped)
  · exact .inl (hhand.mem_takenRuns htook)
  · exact .inr hdropped

theorem Custody.left_step (h : Custody s) (hstep : Step s action t sent) {r' : Run}
    (hr' : t.run? id = some r') (hleft : r'.hasLeft = true) :
    r'.cancelled = true ∨ r'.isDead = true := by
  rcases hstep.run? id with hsame | ⟨r₀, -, htold⟩ | ⟨r₀, r₁, -, hr₀, hr₁, hrun⟩ | ⟨-, -, hnew⟩
  · exact h.left (hsame ▸ hr') hleft
  · cases hr'.symm.trans htold
    exact .inl rfl
  · cases hr'.symm.trans hr₁
    exact hrun.left (h.left hr₀) hleft
  · cases hr'.symm.trans hnew
    cases hleft

theorem Custody.step (h : Custody s) (hs : s.Reachable)
    (hone : s.step? action = some (t, sent)) : Custody t where
  held := h.held_step hs hone
  given := h.given_step (Step.of_step? hone)
  took := h.took_step (Step.of_step? hone)
  once := h.once_step (Step.of_step? hone)
  told := h.told_step (Step.of_step? hone)
  left := h.left_step (Step.of_step? hone)

theorem custody_ofConfig (config : Config) (sink : MessageSink) (text : String) :
    Custody (ofConfig config sink text : Service α) where
  held h := nomatch h
  given h := nomatch h
  took h := nomatch h
  once := List.nodup_nil
  told h := nomatch h
  left h := nomatch h

theorem Reachable.custody (h : s.Reachable) : Custody s := by
  obtain ⟨config, sink, text, hs⟩ := h
  exact hs.induct_reached (motive := Custody)
    (fun hsu hu hstep => hu.step ⟨config, sink, text, hsu⟩ hstep)
    (custody_ofConfig config sink text)

end Service

end CompileWatch
