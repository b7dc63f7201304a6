import CompileWatch.Proofs.Looks
import CompileWatch.Proofs.Overlaps
import CompileWatch.Proofs.Snapshots
import CompileWatch.Proofs.Withdrawals

/-!
# What a stopping run comes to, and when

A run that is told to stop waits for its attempts until all are finished or its grace time is over.
Where it is given the time to run whenever something happens to it, it comes to its result at the
first tick at which one of the two is the case. It counts the attempts whose ends it has not noted;
and since one look at them takes note of so many ends only, it counts finished attempts too if there
are more of them than that when the grace time is over.
-/
namespace CompileWatch

namespace Run

/-- The result that a run is bound for after its last look at its attempts. -/
def bound? (grace : Span) (r : Run) : Option StopResult :=
  match r.stage with
  | .overdue n | .givingUp n | .reportingGrace n => some (.error (.graceExceeded grace n))
  | .closing result | .ended result => some result
  | _ => none

/-- So many steps of its own lead a run that is bound for a result to its end. -/
def stepsToEnd (r : Run) : Nat :=
  match r.stage with
  | .overdue _ => 4
  | .givingUp _ => 3
  | .reportingGrace _ => 2
  | .closing _ => 1
  | _ => 0

/-- What a run says when it is out of its loop. -/
def lastWords (r : Run) : List Event :=
  match r.stage with
  | .closing result => Service.graceReport r.id result
  | .ended result => Service.ending r.id result
  | _ => []

end Run

namespace Service

variable {α : Type} {s t u v w : Service α} {action : Action α}
  {actions before during first : List (Action α)} {sent told : List Stamped} {id n : Nat}
  {r r' : Run} {g : Generation} {a a' : Attempt α}

/-! ## When it is time -/

/-- The tick at which the grace time of a run is over that begins to wait now. -/
def graceEnd (s : Service α) : Nat := s.now + s.config.grace.ticks

/-- Is it time for a run to end its waiting, with a grace time that is over at the tick `last`? -/
def IsDue (s : Service α) (id last : Nat) : Prop := s.unfinished id = [] ∨ last ≤ s.now

/-- Has a run nothing to do at present? -/
def AtRest (s : Service α) (id : Nat) : Prop :=
  ∀ action, runner? action = some id → s.step? action = none

/-- The clock goes on only when the run has nothing to do. -/
def InTime (id : Nat) (s : Service α) (action : Action α) : Prop := action = .tick → s.AtRest id

/-- While the clock stands still, everything is in time. -/
theorem along_inTime (h : ∀ a ∈ actions, a ≠ .tick) : s.Along (InTime id) actions :=
  along_of_forall fun a ha _ htick => absurd htick (h a ha)

theorem Step.now_eq (h : Step s action t sent) (htick : action ≠ .tick) : t.now = s.now := by
  cases h with
  | tick => exact absurd rfl htick
  | ask hask | report hask =>
    obtain ⟨-, -, -, -, hnow, -⟩ := Board.of_ask? hask
    exact hnow
  | wake hwake =>
    obtain ⟨r, -, -, rfl⟩ := Board.of_wake? hwake
    rfl
  | abandon habandon =>
    obtain ⟨r, -, rfl⟩ := Board.of_abandon? habandon
    rfl
  | run _ h => exact h.board.2.2.now
  | attempt _ h =>
    cases h with
    | move _ =>
      rw [now, now, board_afterMove]
      split <;> rfl
    | _ => rfl
  | _ => rfl

/-- Out of its loop a run does not get unfinished attempts any more. -/
theorem Step.unfinished_eq_nil (h : s.step? action = some (t, sent)) (hs : s.Reachable)
    (hr : s.run? id = some r) (hleft : r.hasLeft = true) (hnone : s.unfinished id = []) :
    t.unfinished id = [] := by
  rw [(hs.step h).unfinished_eq_nil_iff]
  rw [hs.unfinished_eq_nil_iff] at hnone
  intro g a' ha' hrun
  obtain ⟨a, ha, hid, hchange⟩ := (Step.of_step? h).exists_before hr hleft ha' hrun
  exact hchange.isFinished (hnone g a ha hid)

theorem Reaches.hasLeft (h : s.Reaches t) (hs : s.Reachable) (hr : s.run? id = some r)
    (hleft : r.hasLeft = true) : ∃ r', t.run? id = some r' ∧ r'.hasLeft = true := by
  refine h.induct_reached (motive := fun u => ∃ r', u.run? id = some r' ∧ r'.hasLeft = true)
    (fun {u v a sent} hsu hu hone => ?_) ⟨r, hr, hleft⟩
  obtain ⟨r', hr', hleft'⟩ := hu
  exact ((Step.of_step? hone).hasLeft (hs.reaches hsu).signed hr' hleft').1

/-- What is due stays so. -/
theorem IsDue.reaches {last : Nat} (h : s.IsDue id last) (hs : s.Reachable)
    (hr : s.run? id = some r) (hleft : r.hasLeft = true) (hst : s.Reaches t) : t.IsDue id last := by
  refine hst.induct_reached (motive := fun u => u.IsDue id last)
    (fun {u v a sent} hsu hdue hone => ?_) h
  obtain ⟨r', hr', hleft'⟩ := hsu.hasLeft hs hr hleft
  rcases hdue with hnone | hlast
  · exact .inl (Step.unfinished_eq_nil hone (hs.reaches hsu) hr' hleft' hnone)
  · exact .inr (Nat.le_trans hlast (Step.of_step? hone).now_le)

/-! ## The steps of a run that waits -/

theorem step?_drained (hr : s.run? id = some r) {since : Nat} (hs : r.stage = .draining since)
    (hnone : (s.looked id Line.turnLength).outstanding id = []) :
    s.step? (.drained id) =
      some ((s.looked id Line.turnLength).moveRun id (.closing (.ok ())), []) := by
  obtain rfl := id_of_run? hr
  simp [step?, hr, drained?, hs, note_eq_looked, hnone, silent]

theorem step?_graceEnds (hr : s.run? id = some r) {since : Nat} (hs : r.stage = .draining since)
    (hover : since + s.config.grace.ticks ≤ s.now)
    (hsome : (s.looked id Line.turnLength).outstanding id ≠ []) :
    ∃ t, s.step? (.graceEnds id) = some (t, []) := by
  obtain rfl := id_of_run? hr
  have hover' : since + (s.looked r.id Line.turnLength).config.grace.ticks ≤
      (s.looked r.id Line.turnLength).now := hover
  simp [step?, hr, graceEnds?, hs, note_eq_looked, hsome, hover', silent]

theorem step?_glance (hr : s.run? id = some r) {since : Nat} (hs : r.stage = .draining since)
    (hnews : s.hasNews id = true) :
    s.step? (.glance id) = some (s.looked id Line.turnLength, []) := by
  obtain rfl := id_of_run? hr
  simp [step?, hr, glance?, hs, note_eq_looked, hnews, silent]

/-- A run that is bound for a result goes on by itself until it has announced its end. -/
theorem exists_proceed_of_bound? (hr : s.run? id = some r) {grace : Span} {result : StopResult}
    (hbound : r.bound? grace = some result) (hnot : r.hasEnded = false) :
    ∃ t told, s.step? (.proceed id) = some (t, told) := by
  refine exists_proceed_of_isSome hr ?_
  unfold Run.bound? at hbound
  split at hbound
  case h_5 hs => simp [Run.hasEnded, hs] at hnot
  case h_6 => cases hbound
  all_goals simp [proceed?, *]

theorem RunStep.bound? (h : RunStep s r action r' t sent) {result : StopResult}
    (hbound : r.bound? s.config.grace = some result) :
    r'.bound? t.config.grace = some result ∧ r'.stepsToEnd < r.stepsToEnd := by
  rw [h.frame.1]
  cases h
  all_goals simp_all [Run.bound?, Run.stepsToEnd]

/-- What a run adds to its last words in a step. -/
theorem RunStep.lastWords (h : RunStep s r action r' t sent) (hleft : r.hasLeft = true) :
    r'.lastWords = r.lastWords ++ said r.id sent := by
  cases h
  case announceGrace hs =>
    rw [said_singleton _ rfl]
    simp [Run.lastWords, hs, graceReport]
  case announceEnd hs =>
    rw [said_singleton _ rfl]
    simp [Run.lastWords, hs, ending]
  case drained hs _ => simp [Run.lastWords, hs, graceReport, said]
  all_goals simp_all [Run.lastWords, Run.hasLeft, said]

/-! ## The way to the end -/

/-- Does the run `id` come to its end with `result` by steps of its own alone, at this tick? -/
def EndsAlone (s : Service α) (id : Nat) (result : StopResult) : Prop :=
  ∃ own t told, (∀ action ∈ own, runner? action = some id) ∧ s.steps? own = some (t, told) ∧
    t.now = s.now ∧ (t.run? id).map (·.stage) = some (.ended result)

theorem EndsAlone.of_step {result : StopResult} (h : u.EndsAlone id result)
    (hrunner : runner? action = some id) (hone : s.step? action = some (u, sent)) :
    s.EndsAlone id result := by
  obtain ⟨own, t, told, hown, hsteps, hnow, hended⟩ := h
  have htick : action ≠ .tick := by rintro rfl; cases hrunner
  refine ⟨action :: own, t, sent ++ told, List.forall_mem_cons.2 ⟨hrunner, hown⟩, ?_, ?_, hended⟩
  · rw [steps?_cons, hone]
    simp [hsteps]
  · exact hnow.trans ((Step.of_step? hone).now_eq htick)

theorem endsAlone_of_bound? (hr : s.run? id = some r) {result : StopResult}
    (hbound : r.bound? s.config.grace = some result) : s.EndsAlone id result := by
  obtain rfl := id_of_run? hr
  -- the induction is on what is left to do
  generalize hlength : r.stepsToEnd = length
  induction length using Nat.strongRecOn generalizing s r with
  | ind length ih =>
    cases hended : r.hasEnded with
    | true =>
      obtain ⟨result', hstage⟩ := Run.hasEnded_eq_true_iff.1 hended
      rw [Run.bound?, hstage] at hbound
      cases hbound
      exact ⟨[], s, [], by simp, rfl, rfl, by simp [hr, hstage]⟩
    | false =>
      obtain ⟨u, told, hone⟩ := exists_proceed_of_bound? hr hbound hended
      obtain ⟨r', hown, hr'⟩ := runStep_of_step? hone hr rfl
      obtain ⟨hbound', hless⟩ := hown.bound? hbound
      have hid : r'.id = r.id := hown.id_eq
      have hends := ih _ (hlength ▸ hless) hbound' (hid.symm ▸ hr') rfl
      exact (hid ▸ hends).of_step rfl hone

/-- If one look is not enough when the grace time is over, the run counts what it leaves over. -/
theorem endsAlone_of_graceEnds (hs : s.Reachable) (hr : s.run? id = some r) {since : Nat}
    (hstage : r.stage = .draining since) (hover : since + s.config.grace.ticks ≤ s.now)
    (hleft : s.leftOver id ≠ 0) :
    s.EndsAlone id (.error (.graceExceeded s.config.grace (s.leftOver id))) := by
  obtain rfl := id_of_run? hr
  have hsome : (s.looked r.id Line.turnLength).outstanding r.id ≠ [] :=
    fun hnone => hleft (hs.outstanding_looked_eq_nil_iff.1 hnone)
  obtain ⟨t, hone⟩ := step?_graceEnds hr hstage hover hsome
  obtain ⟨r', hown, hr'⟩ := runStep_of_step? hone hr rfl
  refine (endsAlone_of_bound? hr' ?_).of_step rfl hone
  cases hown
  rw [← hs.length_outstanding_looked]
  rfl

/-- When it is time, a run that waits comes to its end at that tick. -/
theorem exists_endsAlone_of_isDue (hs : s.Reachable) (hr : s.run? id = some r) {since : Nat}
    (hstage : r.stage = .draining since) (hdue : s.IsDue id (since + s.config.grace.ticks)) :
    ∃ result, s.EndsAlone id result := by
  -- a look takes note of some ends, as long as there are any
  generalize hlength : (s.unnoted id).length = length
  induction length using Nat.strongRecOn generalizing s with
  | ind length ih =>
    by_cases hleft : s.leftOver id = 0
    · have hone := step?_drained hr hstage (hs.outstanding_looked_eq_nil_iff.2 hleft)
      have hclosing : ((s.looked id Line.turnLength).moveRun id (.closing (.ok ()))).run? id =
          some { r with stage := .closing (.ok ()) } := by
        simp [run?_moveRun, hr]
      exact ⟨.ok (), (endsAlone_of_bound? hclosing rfl).of_step rfl hone⟩
    · by_cases hover : since + s.config.grace.ticks ≤ s.now
      · exact ⟨_, endsAlone_of_graceEnds hs hr hstage hover hleft⟩
      · -- all attempts are finished, and there are more of them than one look takes note of
        have hnone := hdue.resolve_right hover
        have hmany : 0 < (s.unnoted id).length := by
          rw [leftOver, hnone, List.length_nil, Nat.zero_add] at hleft
          omega
        have hnews : s.hasNews id = true := by
          cases hnews : s.hasNews id with
          | true => rfl
          | false => simp [hasNews_eq_false_iff.1 hnews] at hmany
        have hone := step?_glance hr hstage hnews
        have hless : ((s.looked id Line.turnLength).unnoted id).length < length := by
          rw [unnoted_looked, List.length_drop, Line.turnLength]
          omega
        have hnone' := (s.unfinished_looked id Line.turnLength).trans hnone
        obtain ⟨result, hends⟩ := ih _ hless (hs.step hone) hr (.inl hnone') rfl
        exact ⟨result, hends.of_step rfl hone⟩

/-- Is it time for a run that has waited since the tick `since` to go to its end? -/
def GoesToEnd (s : Service α) (since : Nat) (r : Run) : Prop :=
  r.stage = .draining since ∧ s.IsDue r.id (since + s.config.grace.ticks) ∨
    ∃ result, r.bound? s.config.grace = some result

theorem GoesToEnd.exists_endsAlone {since : Nat} (h : s.GoesToEnd since r) (hs : s.Reachable)
    (hr : s.run? id = some r) : ∃ result, s.EndsAlone id result := by
  rcases h with ⟨hstage, hdue⟩ | ⟨result, hbound⟩
  · exact exists_endsAlone_of_isDue hs hr hstage (id_of_run? hr ▸ hdue)
  · exact ⟨result, endsAlone_of_bound? hr hbound⟩

/-- A run is not at rest when it is time. -/
theorem GoesToEnd.not_atRest {since : Nat} (h : s.GoesToEnd since r) (hs : s.Reachable)
    (hr : s.run? id = some r) (hnot : r.hasEnded = false) : ¬ s.AtRest id := by
  intro hrest
  obtain ⟨result, own, t, told, hown, hsteps, -, hended⟩ := h.exists_endsAlone hs hr
  cases own with
  | nil =>
    cases hsteps
    rw [hr, Option.map_some, Option.some_inj] at hended
    simp [Run.hasEnded, hended] at hnot
  | cons action rest =>
    obtain ⟨u, first, more, hone, -⟩ := steps?_cons_eq_some hsteps
    cases (hrest action (hown action List.mem_cons_self)).symm.trans hone

/-! ## The last look -/

/-- In the history `during` from `u` to `t`, it was not time for the run `id` at any tick before. -/
def NotDueBefore (u : Service α) (id : Nat) (during : List (Action α)) (t : Service α) : Prop :=
  ∀ first v told, first <+: during → u.steps? first = some (v, told) → v.now < t.now →
    ¬ v.IsDue id u.graceEnd

/-- In the state `w`, the run `id` looks at its attempts for the last time in the history `during`,
which begins in the state `u` with the run waiting. -/
structure LastLook (u : Service α) (id : Nat) (during : List (Action α)) (w : Service α) :
    Prop where
  /-- The history comes to it, and it was not time at an earlier tick. -/
  met : ∃ first action told, u.Meets during first action w told ∧
    (action = .drained id ∨ action = .graceEnds id) ∧ u.NotDueBefore id first w
  waits : (w.run? id).map (·.stage) = some (.draining u.now)
  now_le : w.now ≤ u.graceEnd
  /-- Before the grace time is over it is the last one only if it leaves nothing over. -/
  nothing_left : w.now < u.graceEnd → w.leftOver id = 0

theorem LastLook.append (h : LastLook u id during w) (more : List (Action α)) :
    LastLook u id (during ++ more) w where
  met := by
    obtain ⟨first, action, told, hmeets, hlast⟩ := h.met
    exact ⟨first, action, told, hmeets.append more, hlast⟩
  waits := h.waits
  now_le := h.now_le
  nothing_left := h.nothing_left

/-- It is time when the last look is taken. -/
theorem LastLook.isDue (h : LastLook u id during w) : w.IsDue id u.graceEnd := by
  by_cases hover : u.graceEnd ≤ w.now
  · exact .inr hover
  · have hnone := h.nothing_left (Nat.lt_of_not_le hover)
    exact .inl (List.length_eq_zero_iff.1 (Nat.eq_zero_of_add_eq_zero_right hnone))

/-- Where a run stands that began to wait in the state `u`, when `during` has led to `t` and `told`
was sent: it waits, or it has taken its last look and is bound for the result of it. -/
inductive InDrain (u : Service α) (id : Nat) (during : List (Action α)) (t : Service α)
    (told : List Stamped) (r : Run) : Prop
  | waits : r.stage = .draining u.now → said id told = [] → t.now ≤ u.graceEnd →
      u.NotDueBefore id during t → InDrain u id during t told r
  | bound {w : Service α} : LastLook u id during w →
      r.bound? u.config.grace = some (w.resultOfLook id) → said id told = r.lastWords →
      t.now = w.now ∨ r.hasEnded = true → InDrain u id during t told r

theorem Run.hasLeft_of_draining {since : Nat} (h : r.stage = .draining since) :
    r.hasLeft = true := by
  simp [Run.hasLeft, h]

theorem Run.hasLeft_of_bound? {grace : Span} {result : StopResult}
    (h : r.bound? grace = some result) : r.hasLeft = true := by
  unfold Run.bound? at h
  split at h <;> simp_all [Run.hasLeft]

section Waiting

variable (hu : u.Reachable) (hsteps : u.steps? during = some (v, told)) (hr : v.run? id = some r)

include hu hsteps hr

/-- While a run waits, a step does not bring it past a tick at which it is time. -/
theorem NotDueBefore.step (h : u.NotDueBefore id during v) {r₀ : Run} (hr₀ : u.run? id = some r₀)
    (hleft : r₀.hasLeft = true) (hstage : r.stage = .draining u.now)
    (htime : v.InTime id action) (hone : v.step? action = some (t, sent)) :
    u.NotDueBefore id (during ++ [action]) t ∧ (v.now ≤ u.graceEnd → t.now ≤ u.graceEnd) := by
  have hv : v.Reachable := hu.reaches ⟨during, told, hsteps⟩
  have hconfig : v.config = u.config := Reaches.config ⟨during, told, hsteps⟩
  -- the clock has stood still, or it was not time yet
  have hclock : t.now = v.now ∨ ¬ v.IsDue id u.graceEnd ∧ t.now = v.now + 1 := by
    by_cases htick : action = .tick
    · subst htick
      cases hone
      refine .inr ⟨fun hdue => ?_, rfl⟩
      have hgoes : v.GoesToEnd u.now r := by
        refine .inl ⟨hstage, ?_⟩
        rw [id_of_run? hr, hconfig]
        exact hdue
      exact hgoes.not_atRest hv hr (by simp [Run.hasEnded, hstage]) (htime rfl)
    · exact .inl ((Step.of_step? hone).now_eq htick)
  refine ⟨fun first w told' hprefix hfirst hlt => ?_, fun hle => ?_⟩
  · rcases List.prefix_concat_iff.1 hprefix with rfl | hprefix
    · have hlast : v.steps? [action] = some (t, sent) := by simp [steps?_cons, hone]
      cases hfirst.symm.trans (steps?_append_eq_some hsteps hlast)
      exact absurd hlt (Nat.lt_irrefl _)
    · by_cases hbefore : w.now < v.now
      · exact h first w told' hprefix hfirst hbefore
      · rcases hclock with hsame | ⟨hnot, -⟩
        · exact absurd (hsame ▸ hlt) hbefore
        · -- what is due stays so until now
          obtain ⟨rest, rfl⟩ := hprefix
          obtain ⟨w', told₁, told₂, hfirst', hrest⟩ := exists_of_steps?_append hsteps
          cases hfirst.symm.trans hfirst'
          have huw : u.Reaches w := ⟨first, told', hfirst⟩
          obtain ⟨r₁, hr₁, hleft₁⟩ := huw.hasLeft hu hr₀ hleft
          exact fun hdue => hnot (hdue.reaches (hu.reaches huw) hr₁ hleft₁ ⟨rest, told₂, hrest⟩)
  · rcases hclock with hsame | ⟨hnot, hnext⟩
    · exact hsame ▸ hle
    · have hlt : v.now < u.graceEnd := Nat.lt_of_not_le fun hover => hnot (.inr hover)
      rw [hnext]
      exact hlt

/-- A run that waits takes its last look, or goes on waiting. -/
theorem RunStep.inDrain (h : RunStep v r action r' t sent) (hid : r.id = id)
    (hstage : r.stage = .draining u.now) (hsaid : said id told = []) (hle : v.now ≤ u.graceEnd)
    (hbefore : u.NotDueBefore id during v) (hafter : u.NotDueBefore id (during ++ [action]) t) :
    InDrain u id (during ++ [action]) t (told ++ sent) r' := by
  have hv : v.Reachable := hu.reaches ⟨during, told, hsteps⟩
  have hconfig : v.config = u.config := Reaches.config ⟨during, told, hsteps⟩
  subst hid
  have look (hlast : action = .drained r.id ∨ action = .graceEnds r.id)
      (hnothing : v.now < u.graceEnd → v.leftOver r.id = 0) :
      LastLook u r.id (during ++ [action]) v :=
    { met := ⟨during, action, told, meets_append hsteps action, hlast, hbefore⟩
      waits := by rw [hr, Option.map_some, hstage]
      now_le := hle
      nothing_left := hnothing }
  cases h
  case drained _ hnone =>
    have hleft := hv.outstanding_looked_eq_nil_iff.1 hnone
    refine .bound (look (.inl rfl) fun _ => hleft) ?_ ?_ (.inl rfl)
    · rw [resultOfLook, if_pos hleft]
      rfl
    · rw [List.append_nil, hsaid]
      rfl
  case graceEnds since hstage' hover hsome =>
    have hleft : v.leftOver r.id ≠ 0 :=
      fun hnone => hsome (hv.outstanding_looked_eq_nil_iff.2 hnone)
    obtain rfl : u.now = since := by simpa using hstage.symm.trans hstage'
    have hlate : u.graceEnd ≤ v.now := by rwa [graceEnd, ← hconfig]
    refine .bound (look (.inr rfl) fun hlt => absurd hlate (Nat.not_le.2 hlt)) ?_ ?_ (.inl rfl)
    · rw [resultOfLook, if_neg hleft, hv.length_outstanding_looked, hconfig]
      rfl
    · rw [List.append_nil, hsaid]
      rfl
  case glance =>
    refine .waits hstage ?_ hle hafter
    rw [List.append_nil, hsaid]
  all_goals simp_all

/-- A step keeps a run on its way from the beginning of its waiting to its end. -/
theorem InDrain.step (h : InDrain u id during v told r) {r₀ : Run} (hr₀ : u.run? id = some r₀)
    (hleft : r₀.hasLeft = true) (htime : v.InTime id action)
    (hone : v.step? action = some (t, sent)) :
    ∃ r', t.run? id = some r' ∧ InDrain u id (during ++ [action]) t (told ++ sent) r' := by
  have hv : v.Reachable := hu.reaches ⟨during, told, hsteps⟩
  have hconfig : v.config = u.config := Reaches.config ⟨during, told, hsteps⟩
  have hstep := Step.of_step? hone
  have hid := id_of_run? hr
  cases h with
  | waits hstage hsaid hle hbefore =>
    obtain ⟨hafter, hlater⟩ := NotDueBefore.step hu hsteps hr hbefore hr₀ hleft hstage htime hone
    rcases hstep.said hv id with ⟨r₁, r', -, hr₁, hr', hown⟩ | ⟨hnone, -⟩ | ⟨hsilent, hrun⟩
    · cases hr.symm.trans hr₁
      exact ⟨r', hr', hown.inDrain hu hsteps hr hid hstage hsaid hle hbefore hafter⟩
    · cases hr.symm.trans hnone
    · have hnothing : said id (told ++ sent) = [] := by rw [said_append, hsaid, hsilent]; rfl
      rcases hrun with hsame | ⟨r₁, hr₁, htold⟩
      · exact ⟨r, hsame.trans hr, .waits hstage hnothing (hlater hle) hafter⟩
      · cases hr.symm.trans hr₁
        exact ⟨_, htold, .waits hstage hnothing (hlater hle) hafter⟩
  | @bound w hlook hbound hsaid hnow =>
    have hlook' := hlook.append [action]
    rcases hstep.said hv id with ⟨r₁, r', -, hr₁, hr', hown⟩ | ⟨hnone, -⟩ | ⟨hsilent, hrun⟩
    · cases hr.symm.trans hr₁
      have hbound' := (hown.bound? (hconfig ▸ hbound)).1
      rw [hstep.config, hconfig] at hbound'
      refine ⟨r', hr', .bound hlook' hbound' ?_ (.inl ?_)⟩
      · rw [said_append, hsaid, hown.lastWords (Run.hasLeft_of_bound? hbound), hid]
      · -- a run that has ended takes no step any more
        rcases hnow with hnow | hended
        · exact hown.board.2.2.now.trans hnow
        · obtain ⟨result, hstage⟩ := Run.hasEnded_eq_true_iff.1 hended
          have hnone := hown.result?_eq_none
          simp [Run.result?, hstage] at hnone
    · cases hr.symm.trans hnone
    · have hlast : said id (told ++ sent) = r.lastWords := by
        rw [said_append, hsilent, List.append_nil, hsaid]
      have hclock : t.now = w.now ∨ r.hasEnded = true := by
        cases hended : r.hasEnded with
        | true => exact .inr rfl
        | false =>
          have hgoes : v.GoesToEnd u.now r := .inr ⟨_, hconfig ▸ hbound⟩
          have htick : action ≠ .tick := fun htick =>
            hgoes.not_atRest hv hr hended (htime htick)
          rw [hended] at hnow
          exact .inl ((hstep.now_eq htick).trans (hnow.resolve_right Bool.false_ne_true))
      rcases hrun with hsame | ⟨r₁, hr₁, htold⟩
      · exact ⟨r, hsame.trans hr, .bound hlook' hbound hlast hclock⟩
      · cases hr.symm.trans hr₁
        exact ⟨_, htold, .bound hlook' hbound hlast hclock⟩

end Waiting

/-- A run that leaves its loop begins to wait. -/
theorem run?_of_leave {quiet : List Stamped} (hleave : s.step? (.leave id) = some (u, quiet)) :
    ∃ r, u.run? id = some r ∧ r.stage = .draining u.now := by
  cases Step.of_step? hleave with
  | @run r r' _ _ _ hr h =>
    obtain rfl : r.id = id := Option.some.inj h.runner.symm
    cases h
    exact ⟨{ r with stage := .draining s.now }, by simp [run?_moveRun, hr], rfl⟩
  | attempt _ h => cases h

/-- From the beginning of its waiting on, a run is on its way to the result of its last look. -/
theorem inDrain_of_steps? (hu : u.Reachable) {r₀ : Run} (hr₀ : u.run? id = some r₀)
    (hstage : r₀.stage = .draining u.now) (hsteps : u.steps? during = some (t, told))
    (htime : u.Along (InTime id) during) :
    ∃ r, t.run? id = some r ∧ InDrain u id during t told r := by
  refine steps?_induct (motive := fun during t told => u.Along (InTime id) during →
      ∃ r, t.run? id = some r ∧ InDrain u id during t told r)
    (fun {first v w a told more} hfirst hone ih htime => ?_) (fun _ => ?_) hsteps htime
  · obtain ⟨r, hr, hdrain⟩ := ih htime.of_append
    have hleft := Run.hasLeft_of_draining hstage
    exact hdrain.step hu hfirst hr hr₀ hleft (htime.of_concat hfirst) hone
  · refine ⟨r₀, hr₀, .waits hstage rfl (Nat.le_add_right _ _) ?_⟩
    intro first v told hprefix hfirst hlt
    cases List.prefix_nil.1 hprefix
    cases hfirst
    exact absurd hlt (Nat.lt_irrefl _)

/-- While a run waits for its attempts, and when it has seen them all come to an end, they are as
they were at the beginning, but for what they have done themselves. -/
theorem leftAlone_of_steps? (hu : u.Reachable) {r₀ : Run} (hr₀ : u.run? id = some r₀)
    (hleft : r₀.hasLeft = true) (hsteps : u.steps? during = some (t, told)) :
    ∀ r, t.run? id = some r → r.isPatient = true → ∀ g a, t.attempt? g = some a → a.run = id →
      ∃ b, u.attempt? g = some b ∧ a.calledOff = b.calledOff ∧
        (a.cancelled = true → b.cancelled = true ∨ .cancelItself g ∈ during) := by
  refine steps?_induct (motive := fun during t _ => ∀ r, t.run? id = some r →
      r.isPatient = true → ∀ g a, t.attempt? g = some a → a.run = id →
      ∃ b, u.attempt? g = some b ∧ a.calledOff = b.calledOff ∧
        (a.cancelled = true → b.cancelled = true ∨ .cancelItself g ∈ during))
    (fun {first v w action told more} hfirst hone ih r' hr' hpatient' g a' ha' hrun => ?_)
    (fun r _ _ g a ha _ => ⟨a, ha, rfl, .inl⟩) hsteps
  have huv : u.Reaches v := ⟨first, told, hfirst⟩
  have hv := hu.reaches huv
  have hstep := Step.of_step? hone
  obtain ⟨actions, hminded⟩ := hv.exists_minded
  obtain ⟨r, hr, hleft⟩ := huv.hasLeft hu hr₀ hleft
  obtain ⟨a, ha, hid, -⟩ := hstep.exists_before hr hleft ha' hrun
  have hpatient := hstep.isPatient hr hleft hr' hpatient'
  obtain ⟨b, hb, hoff, hcancelled⟩ := ih r hr hpatient g a ha hid
  have halone := hstep.leftAlone_of_isPatient hminded hr hpatient ha hid ha'
  refine ⟨b, hb, halone.1.trans hoff, fun hc => ?_⟩
  rcases halone.2 hc with hbefore | rfl
  · rcases hcancelled hbefore with hold | hself
    · exact .inl hold
    · exact .inr (List.mem_append_left _ hself)
  · rw [generation_of_attempt? ha]
    exact .inr (List.mem_append_right _ List.mem_cons_self)

/-! ## What the waiting comes to -/

theorem Run.isPatient_of_bound? {grace : Span} (h : r.bound? grace = some (.ok ())) :
    r.isPatient = true := by
  unfold Run.bound? at h
  split at h <;> simp_all [Run.isPatient]

/-- A run that is bound for a result has not died. -/
theorem Run.stage_of_bound? {grace : Span} {bound result : StopResult}
    (h : r.bound? grace = some bound) (hresult : r.result? = some result) :
    r.stage = .ended result := by
  unfold Run.result? at hresult
  split at hresult
  · next hs => exact hs.trans (congrArg _ (Option.some.inj hresult))
  · next hs => simp [Run.bound?, hs] at h
  · cases hresult

theorem LastLook.reaches (h : LastLook u id during w) (hsteps : u.steps? during = some (t, told)) :
    u.Reaches w ∧ w.Reaches t := by
  obtain ⟨first, action, sent, ⟨⟨rest, hrest⟩, hfirst⟩, -⟩ := h.met
  rw [← hrest, List.append_assoc] at hsteps
  obtain ⟨w', more, last, hfirst', hlast⟩ := exists_of_steps?_append hsteps
  cases hfirst.symm.trans hfirst'
  exact ⟨⟨first, sent, hfirst⟩, ⟨_, last, hlast⟩⟩

/-- What becomes of the run `id` that began to wait for its attempts in the state `u`, when `before`
had happened. Since then `during` has happened, which led to `t` and sent `told`, and the run stands
as `r`. -/
structure Drains (before : List (Action α)) (u : Service α) (id : Nat) (during : List (Action α))
    (t : Service α) (told : List Stamped) (r : Run) : Prop where
  /-- It waits while some attempt is not finished and the grace time is not over, -/
  waits : ¬ t.IsDue id u.graceEnd → r.stage = .draining u.now
  /-- and as long as it waits, it is not past a tick at which it was time to end. -/
  in_time : r.stage = .draining u.now → t.now ≤ u.graceEnd ∧ u.NotDueBefore id during t
  /-- When it is time, its own steps are enough to bring it to its end, at that tick. -/
  ends : t.IsDue id u.graceEnd → ∃ own v more w, (∀ action ∈ own, runner? action = some id) ∧
    t.steps? own = some (v, more) ∧ v.now = t.now ∧ LastLook u id (during ++ own) w ∧
    (v.run? id).map (·.stage) = some (.ended (w.resultOfLook id))
  /-- When it does not wait any more, it has looked for the last time, because it was time, and is
  bound for what that look came to. It is still the same tick unless the end is announced. -/
  comes : r.stage ≠ .draining u.now → ∃ w, LastLook u id during w ∧ w.IsDue id u.graceEnd ∧
    r.bound? u.config.grace = some (w.resultOfLook id) ∧ (t.now = w.now ∨ r.hasEnded = true)
  /-- It has ended well only if all attempts were finished, -/
  ended_ok : r.stage = .ended (.ok ()) → ∃ w, LastLook u id during w ∧ w.unfinished id = []
  /-- and badly only when its grace time was over. Then the error tells how many attempts the look
  left over: as many as were not finished, if it could take note of all ends. -/
  ended_error {why : StopError} : r.stage = .ended (.error why) → ∃ w, LastLook u id during w ∧
    w.now = u.graceEnd ∧ why = .graceExceeded u.config.grace (w.leftOver id) ∧
    1 ≤ w.leftOver id ∧
    ((w.unnoted id).length ≤ Line.turnLength → w.leftOver id = (w.unfinished id).length)
  /-- It announces the same grace time and the same number, and then its end. -/
  speaks : said id told = r.lastWords
  /-- A stop of the run returns the same. -/
  returned {call : StopCall} {result : StopResult} {waited : Nat} : call ∈ t.stops →
    call.run = some id → call.stage = .returned result waited → r.stage = .ended result
  /-- Before its grace time is over it is patient, -/
  patient : t.now < u.graceEnd → r.isPatient = true
  /-- and as long as it is so, nobody calls its attempts off, and nobody but the compiler of an
  attempt cancels its token. -/
  spares : r.isPatient = true → ∀ g a, t.attempt? g = some a → a.run = id →
    ∃ b, u.attempt? g = some b ∧ a.calledOff = b.calledOff ∧
      (a.cancelled = true → b.cancelled = true ∨ .cancelItself g ∈ during)
  /-- So if its newest attempt finished in that time, without having given up or cancelled itself,
  the slot holds what that made as long as no newer attempt raises the floor. -/
  latest {first : List (Action α)} {v : Service α} {more : List Stamped} {r₁ : Run} {g : Generation}
      {a : Attempt α} : first <+: during → u.steps? first = some (v, more) →
    v.run? id = some r₁ → r₁.isPatient = true → v.attempt? g = some a → a.run = id →
    a.isFinished = true → a.stage ≠ .finished (some .gaveUp) → .cancelItself g ∉ before →
    .cancelItself g ∉ first → t.slot.floor ≤ g → ∃ artifact, t.slot.latest = some artifact ∧
      artifact.generation = g ∧ artifact.source = a.source

section Drained

variable (h : InDrain u id during t told r)

include h

theorem InDrain.comes (hnot : r.stage ≠ .draining u.now) : ∃ w, LastLook u id during w ∧
    r.bound? u.config.grace = some (w.resultOfLook id) ∧
    (t.now = w.now ∨ r.hasEnded = true) := by
  cases h with
  | waits hstage _ _ _ => exact absurd hstage hnot
  | bound hlook hbound _ hnow => exact ⟨_, hlook, hbound, hnow⟩

theorem InDrain.in_time (hstage : r.stage = .draining u.now) :
    t.now ≤ u.graceEnd ∧ u.NotDueBefore id during t := by
  cases h with
  | waits _ _ hle hbefore => exact ⟨hle, hbefore⟩
  | bound _ hbound _ _ => simp [Run.bound?, hstage] at hbound

theorem InDrain.said : said id told = r.lastWords := by
  cases h with
  | waits hstage hsaid _ _ => rw [hsaid, Run.lastWords, hstage]
  | bound _ _ hsaid _ => exact hsaid

/-- Only the end of a run settles what a stop of it returns. -/
theorem InDrain.stage_of_result? {result : StopResult} (hresult : r.result? = some result) :
    r.stage = .ended result := by
  cases h with
  | waits hstage _ _ _ => simp [Run.result?, hstage] at hresult
  | bound _ hbound _ _ => exact Run.stage_of_bound? hbound hresult

/-- What a run has ended with is what its last look came to. -/
theorem InDrain.exists_lastLook {result : StopResult} (hended : r.stage = .ended result) :
    ∃ w, LastLook u id during w ∧ w.resultOfLook id = result := by
  obtain ⟨w, hlook, hbound, -⟩ := h.comes (by simp [hended])
  rw [Run.bound?, hended] at hbound
  exact ⟨w, hlook, (Option.some.inj hbound).symm⟩

variable (hsteps : u.steps? during = some (t, told))

include hsteps

/-- A run whose grace time is not over has lost no patience. -/
theorem InDrain.isPatient (hlt : t.now < u.graceEnd) : r.isPatient = true := by
  cases h with
  | waits hstage _ _ _ => rw [Run.isPatient, hstage]
  | @bound w hlook hbound _ _ =>
    have hle := Reaches.now_le (hlook.reaches hsteps).2
    rw [resultOfLook_eq_ok_iff.2 (hlook.nothing_left (Nat.lt_of_le_of_lt hle hlt))] at hbound
    exact Run.isPatient_of_bound? hbound

/-- A run that ends with an error has waited until its grace time was over. -/
theorem InDrain.ended_error {why : StopError} (hended : r.stage = .ended (.error why)) :
    ∃ w, LastLook u id during w ∧ w.now = u.graceEnd ∧
      why = .graceExceeded u.config.grace (w.leftOver id) ∧ 1 ≤ w.leftOver id ∧
      ((w.unnoted id).length ≤ Line.turnLength → w.leftOver id = (w.unfinished id).length) := by
  obtain ⟨w, hlook, herror⟩ := h.exists_lastLook hended
  have hsome : w.leftOver id ≠ 0 := fun hnone => by
    cases (resultOfLook_eq_ok_iff.2 hnone).symm.trans herror
  have hnow : w.now = u.graceEnd := Nat.le_antisymm hlook.now_le
    (Nat.le_of_not_lt fun hlt => hsome (hlook.nothing_left hlt))
  rw [resultOfLook, if_neg hsome, Reaches.config (hlook.reaches hsteps).1] at herror
  exact ⟨w, hlook, hnow, (Except.error.inj herror).symm, Nat.pos_of_ne_zero hsome, leftOver_of_le⟩

variable (hu : u.Reachable) {r₀ : Run} (hr₀ : u.run? id = some r₀)
  (hstage : r₀.stage = .draining u.now)

include hu hr₀ hstage

/-- A run waits as long as it is not time. -/
theorem InDrain.waits_of_not_isDue (hnot : ¬ t.IsDue id u.graceEnd) :
    r.stage = .draining u.now := by
  cases h with
  | waits hwaits _ _ _ => exact hwaits
  | bound hlook _ _ _ =>
    obtain ⟨huw, hwt⟩ := hlook.reaches hsteps
    obtain ⟨r₁, hr₁, hleft₁⟩ := huw.hasLeft hu hr₀ (Run.hasLeft_of_draining hstage)
    exact absurd (hlook.isDue.reaches (hu.reaches huw) hr₁ hleft₁ hwt) hnot

/-- When it is time, a run comes to the result of its last look by steps of its own. -/
theorem InDrain.exists_ended (htime : u.Along (InTime id) during) (hr : t.run? id = some r)
    (hdue : t.IsDue id u.graceEnd) :
    ∃ own v more w, (∀ action ∈ own, runner? action = some id) ∧
      t.steps? own = some (v, more) ∧ v.now = t.now ∧ LastLook u id (during ++ own) w ∧
      (v.run? id).map (·.stage) = some (.ended (w.resultOfLook id)) := by
  have ht := hu.reaches ⟨during, told, hsteps⟩
  have hconfig : t.config = u.config := Reaches.config ⟨during, told, hsteps⟩
  have hgoes : t.GoesToEnd u.now r := by
    cases h with
    | waits hwaits _ _ _ =>
      refine .inl ⟨hwaits, ?_⟩
      rw [id_of_run? hr, hconfig]
      exact hdue
    | bound _ hbound _ _ => exact .inr ⟨_, hconfig ▸ hbound⟩
  obtain ⟨result, own, v, more, hown, hrest, hnow, hended⟩ := hgoes.exists_endsAlone ht hr
  have htime' : u.Along (InTime id) (during ++ own) := by
    refine htime.append hsteps (along_inTime fun action hmem htick => ?_)
    subst htick
    cases hown _ hmem
  obtain ⟨r', hr', hdrain⟩ :=
    inDrain_of_steps? hu hr₀ hstage (steps?_append_eq_some hsteps hrest) htime'
  rw [hr', Option.map_some] at hended
  obtain ⟨w, hlook, rfl⟩ := hdrain.exists_lastLook (Option.some.inj hended)
  exact ⟨own, v, more, w, hown, hrest, hnow, hlook, by rw [hr', Option.map_some, hended]⟩

end Drained

/-- A run that leaves its loop waits for its attempts, and if it is given the time to run whenever
it can, it comes to its result at the first tick at which all are finished or its grace time is
over: it ends well if its last look leaves nothing over, and otherwise says how many attempts that
leaves over. Before its grace time is over it withdraws no attempt. -/
theorem draining_run_comes_to_last_look {config : Config} {sink : MessageSink} {text : String}
    {quiet : List Stamped} (hbefore : (ofConfig config sink text).steps? before = some (s, sent))
    (hleave : s.step? (.leave id) = some (u, quiet))
    (hsteps : u.steps? during = some (t, told)) (htime : u.Along (InTime id) during) :
    ∃ r, t.run? id = some r ∧ Drains before u id during t told r := by
  have hs : s.Reachable := ⟨config, sink, text, before, sent, hbefore⟩
  have hu : u.Reachable := hs.step hleave
  have ht : t.Reachable := hu.reaches ⟨during, told, hsteps⟩
  obtain ⟨r₀, hr₀, hstage⟩ := run?_of_leave hleave
  have hleft := Run.hasLeft_of_draining hstage
  obtain ⟨r, hr, hdrain⟩ := inDrain_of_steps? hu hr₀ hstage hsteps htime
  refine ⟨r, hr,
    { waits := hdrain.waits_of_not_isDue hsteps hu hr₀ hstage
      in_time := hdrain.in_time
      ends := hdrain.exists_ended hsteps hu hr₀ hstage htime hr
      comes := fun hnot => ?_
      ended_ok := fun hended => ?_
      ended_error := hdrain.ended_error hsteps
      speaks := hdrain.said
      returned := fun hcall hrun hreturned => ?_
      patient := hdrain.isPatient hsteps
      spares := leftAlone_of_steps? hu hr₀ hleft hsteps r hr
      latest := ?_ }⟩
  · obtain ⟨w, hlook, hbound, hnow⟩ := hdrain.comes hnot
    exact ⟨w, hlook, hlook.isDue, hbound, hnow⟩
  · obtain ⟨w, hlook, hok⟩ := hdrain.exists_lastLook hended
    have hnone := resultOfLook_eq_ok_iff.1 hok
    exact ⟨w, hlook, List.length_eq_zero_iff.1 (Nat.eq_zero_of_add_eq_zero_right hnone)⟩
  · obtain ⟨n, hn⟩ := List.mem_iff_getElem?.1 hcall
    obtain ⟨r', hr', hresult⟩ := ht.resulting.returned hn hrun hreturned
    cases hr.symm.trans hr'
    exact hdrain.stage_of_result? hresult
  · intro first v more r₁ g a hprefix hfirst hr₁ hpatient ha hrun hfinished hgaveUp hself hself' hle
    obtain ⟨rest, rfl⟩ := hprefix
    obtain ⟨v', _, last, hfirst', hrest⟩ := exists_of_steps?_append hsteps
    cases hfirst.symm.trans hfirst'
    have hv := hu.reaches ⟨first, more, hfirst⟩
    have hvt : v.Reaches t := ⟨rest, last, hrest⟩
    have hmiddle : s.steps? [.leave id] = some (u, quiet) := by simp [steps?_cons, hleave]
    have hminded := minded_of_steps?
      (steps?_append_eq_some (steps?_append_eq_some hbefore hmiddle) hfirst)
    have hstored := hminded.stored_of_finished hv hr₁ hpatient ha hrun
      (Nat.le_trans hvt.floor_le_floor hle) hfinished hgaveUp (by simp [hself, hself'])
    exact hvt.latest hv ha hstored hle

/-- A run is stopped when its two attempts are inside the compiler, the first of them displaced by
the second. -/
def stoppedWithTwo : List (Action Nat) :=
  [Action.start, Action.tick, Action.poll 1] ++ List.replicate 6 (Action.proceed 1) ++
    [Action.take 1, Action.edit "b", Action.tick, Action.poll 1] ++
    List.replicate 9 (Action.proceed 1) ++ [Action.take 2, Action.stop, Action.tellRun 0]

/-- The second attempt comes to an end before the grace time is over. -/
def newestFinishes : List (Action Nat) :=
  Action.compiled 2 (.value 5) :: List.replicate 5 (Action.finish 2) ++ [Action.glance 1]

/-- The grace time is over, and the run goes to its end. -/
def graceIsOver : List (Action Nat) :=
  [Action.tick, Action.graceEnds 1] ++ List.replicate 4 (Action.proceed 1)

/-- The displaced attempt is left behind, and the slot holds what the newest one has made. -/
theorem draining_run_comes_to_last_look_abandoning : ∃ s u t : Service Nat, ∃ sent quiet told r,
    (ofConfig { grace := .ofMillis 1 } {} "a").steps? stoppedWithTwo = some (s, sent) ∧
    s.step? (.leave 1) = some (u, quiet) ∧
    u.steps? (newestFinishes ++ graceIsOver) = some (t, told) ∧
    u.Along (InTime 1) (newestFinishes ++ graceIsOver) ∧
    t.run? 1 = some r ∧ r.stage = .ended (.error (.graceExceeded (.ofMillis 1) 1)) ∧
    t.slot.stored = 2 ∧ Drains stoppedWithTwo u 1 (newestFinishes ++ graceIsOver) t told r := by
  obtain ⟨s, u, v, t, sent, quiet, more, told, r, hbefore, hleave, hfirst, hrest, hsteps, hr,
      hstage, hstored⟩ : ∃ s u v t : Service Nat, ∃ sent quiet more told r,
      (ofConfig { grace := .ofMillis 1 } {} "a").steps? stoppedWithTwo = some (s, sent) ∧
      s.step? (.leave 1) = some (u, quiet) ∧ u.steps? newestFinishes = some (v, more) ∧
      v.AtRest 1 ∧ u.steps? (newestFinishes ++ graceIsOver) = some (t, told) ∧
      t.run? 1 = some r ∧ r.stage = .ended (.error (.graceExceeded (.ofMillis 1) 1)) ∧
      t.slot.stored = 2 := by
    refine ⟨_, _, _, _, _, _, _, _, _, rfl, rfl, rfl, ?_, rfl, rfl, rfl, rfl⟩
    intro action h
    cases action <;> cases h <;> rfl
  have htime : u.Along (InTime 1) (newestFinishes ++ graceIsOver) := by
    refine (along_inTime (by simp [newestFinishes])).append hfirst ⟨fun _ => hrest, ?_⟩
    exact fun _ _ _ => along_inTime (by simp)
  obtain ⟨r', hr', hdrains⟩ := draining_run_comes_to_last_look hbefore hleave hsteps htime
  cases hr.symm.trans hr'
  exact ⟨s, u, t, sent, quiet, told, r, hbefore, hleave, hsteps, htime, hr, hstage, hstored,
    hdrains⟩

end Service

end CompileWatch
