import CompileWatch.Proofs.Retrievals
import Mathlib.Data.Nat.Count

/-!
# The service with some of its calls

`Service.only` is what is seen of the service when some retrievals are left out: everything but
those calls, the sink, and the numbers of the events. What is seen goes the way of the service: each
part of a step does to what is seen what it does to the service, so that a step that is not one of
the calls left out is seen as the same step.
-/
namespace CompileWatch

/-! ## Some places of a list -/

/-- The entries of a list at the places that are kept. -/
def pick {β : Type} (keep : Nat → Bool) : List β → List β
  | [] => []
  | b :: rest => if keep 0 then b :: pick (keep ∘ Nat.succ) rest else pick (keep ∘ Nat.succ) rest

/-- The new place of an entry: so many places before it are kept. -/
def rank (keep : Nat → Bool) (i : Nat) : Nat := Nat.count (keep · = true) i

section Pick

variable {β γ : Type} {keep : Nat → Bool} {l : List β} {i : Nat}

theorem rank_succ (keep : Nat → Bool) (i : Nat) :
    rank keep (i + 1) = (if keep 0 then 1 else 0) + rank (keep ∘ Nat.succ) i := by
  unfold rank
  rw [Nat.count_succ', Nat.add_comm]
  rfl

theorem rank_all (i : Nat) : rank (fun _ => true) i = i := by
  simp [rank]

theorem pick_all (l : List β) : pick (fun _ => true) l = l := by
  induction l with
  | nil => rfl
  | cons b rest ih => exact congrArg (b :: ·) ih

theorem pick_none (l : List β) : pick (fun _ => false) l = [] := by
  induction l with
  | nil => rfl
  | cons b rest ih => exact ih

theorem pick_map (keep : Nat → Bool) (f : β → γ) (l : List β) :
    pick keep (l.map f) = (pick keep l).map f := by
  induction l generalizing keep with
  | nil => rfl
  | cons b rest ih =>
    rw [List.map_cons, pick, pick, ih]
    split <;> rfl

theorem pick_concat (keep : Nat → Bool) (l : List β) (b : β) :
    pick keep (l ++ [b]) = pick keep l ++ if keep l.length then [b] else [] := by
  induction l generalizing keep with
  | nil => rfl
  | cons c rest ih =>
    rw [List.cons_append, pick, pick, ih, List.length_cons]
    split <;> rfl

theorem getElem?_pick (hi : keep i = true) (l : List β) : (pick keep l)[rank keep i]? = l[i]? := by
  induction l generalizing keep i with
  | nil => rfl
  | cons b rest ih =>
    cases i with
    | zero =>
      rw [pick, if_pos hi]
      simp [rank]
    | succ i =>
      have hrest : (pick (keep ∘ Nat.succ) rest)[rank (keep ∘ Nat.succ) i]? = rest[i]? := ih hi
      rw [rank_succ, pick]
      split
      · rw [Nat.add_comm]
        exact hrest
      · rw [Nat.zero_add]
        exact hrest

theorem pick_set (hi : keep i = true) (l : List β) (b : β) :
    pick keep (l.set i b) = (pick keep l).set (rank keep i) b := by
  induction l generalizing keep i with
  | nil => rfl
  | cons c rest ih =>
    cases i with
    | zero => simp [pick, hi, rank]
    | succ i =>
      have hrest : pick (keep ∘ Nat.succ) (rest.set i b) =
          (pick (keep ∘ Nat.succ) rest).set (rank (keep ∘ Nat.succ) i) b := ih hi
      rw [List.set_cons_succ, rank_succ, pick, pick, hrest]
      split
      · rw [Nat.add_comm, List.set_cons_succ]
      · rw [Nat.zero_add]

theorem pick_set_of_not (hi : keep i = false) (l : List β) (b : β) :
    pick keep (l.set i b) = pick keep l := by
  induction l generalizing keep i with
  | nil => rfl
  | cons c rest ih =>
    cases i with
    | zero => simp [pick, hi]
    | succ i =>
      have hrest : pick (keep ∘ Nat.succ) (rest.set i b) = pick (keep ∘ Nat.succ) rest := ih hi
      rw [List.set_cons_succ, pick, pick, hrest]

end Pick

/-! ## What is seen of a state -/

namespace Attempt

variable {α : Type}

/-- The stage without the number of the event that is made but not sent. -/
def Stage.unstamped : Stage α → Stage α
  | .sendingPanic text e => .sendingPanic text { e with seq := 0 }
  | .sending how e => .sending how { e with seq := 0 }
  | stage => stage

def unstamped (a : Attempt α) : Attempt α := { a with stage := a.stage.unstamped }

variable {a : Attempt α}

theorem unstamped_unstamped (a : Attempt α) : a.unstamped.unstamped = a.unstamped := by
  obtain ⟨_, _, _, _, _, _, _, _, stage⟩ := a
  cases stage <;> rfl

theorem isFinished_unstamped (a : Attempt α) : a.unstamped.isFinished = a.isFinished := by
  obtain ⟨_, _, _, _, _, _, _, _, stage⟩ := a
  cases stage <;> rfl

theorem isUnnoted_unstamped (a : Attempt α) : a.unstamped.isUnnoted = a.isUnnoted :=
  congrArg (· && !a.noted) a.isFinished_unstamped

theorem isCompiling_unstamped (a : Attempt α) : a.unstamped.isCompiling = a.isCompiling := by
  obtain ⟨_, _, _, _, _, _, _, _, stage⟩ := a
  cases stage <;> rfl

/-- What is seen of a step of an attempt. -/
structure Glimpse (α : Type) where
  attempt : Attempt α
  slot : Slot α
  sent : Option Event
  notifies : Bool

def Move.seen (move : Move α) : Glimpse α :=
  ⟨move.attempt.unstamped, move.slot, move.sent.map (·.event), move.notifies⟩

/-- An attempt goes on in the same way whatever the numbers of events are. -/
theorem next?_unstamped (first second : Nat) (slot : Slot α) (a : Attempt α) :
    (a.unstamped.next? first slot).map (·.seen) = (a.next? second slot).map (·.seen) := by
  obtain ⟨_, _, _, _, _, _, _, _, stage⟩ := a
  cases stage <;> rfl

end Attempt

namespace Board

variable {α : Type}

/-- The board with some of the calls, and without the sink. -/
def only (keep : Nat → Bool) (b : Board α) : Board α :=
  { b with retrievals := (pick keep b.retrievals.toList).toArray, sink := {} }

variable {keep : Nat → Bool} {b : Board α} {i : Nat}

theorem notify_only (keep : Nat → Bool) (b : Board α) :
    (b.only keep).notify = b.notify.only keep := by
  simp [only, notify, pick_map]

theorem call_only (hkeep : keep b.retrievals.size = true) (label code : String) (timeout : Span) :
    (b.only keep).call label code timeout = (b.call label code timeout).only keep := by
  simp [only, call, pick_concat, hkeep]

theorem call_only_of_not (hkeep : keep b.retrievals.size = false) (label code : String)
    (timeout : Span) : (b.call label code timeout).only keep = b.only keep := by
  simp [only, call, pick_concat, hkeep]

theorem getElem?_only (hi : keep i = true) (b : Board α) :
    (b.only keep).retrievals[rank keep i]? = b.retrievals[i]? := by
  simp [only, getElem?_pick hi]

theorem put_only (hi : keep i = true) (b : Board α) (r : Retrieval α) :
    (b.only keep).put (rank keep i) r = (b.put i r).only keep := by
  simp [only, put, pick_set hi]

theorem put_only_of_not (hi : keep i = false) (b : Board α) (r : Retrieval α) :
    (b.put i r).only keep = b.only keep := by
  simp [only, put, pick_set_of_not hi]

theorem tell_only (keep : Nat → Bool) (b : Board α) (batch : Option (List Diagnostic)) :
    (b.tell batch).only keep = b.only keep := by
  cases batch <;> rfl

theorem only_all (b : Board α) : b.only (fun _ => true) = { b with sink := {} } := by
  simp [only, pick_all]

theorem only_all_only (keep : Nat → Bool) (b : Board α) :
    (b.only keep).only (fun _ => true) = b.only keep := by
  rw [only_all]
  rfl

/-- A call that is kept goes on as it did. -/
theorem ask?_only (hi : keep i = true) (b : Board α) :
    ((b.only keep).ask? (rank keep i)).map (fun (c, e) => (c.only fun _ => true, e)) =
      (b.ask? i).map fun (c, e) => (c.only keep, e) := by
  unfold ask?
  rw [getElem?_only hi]
  cases b.retrievals[i]? with
  | none => rfl
  | some r =>
    show ((r.next? b.now b.slot b.poll).map _).map _ = ((r.next? b.now b.slot b.poll).map _).map _
    rw [Option.map_map, Option.map_map]
    congr 1
    funext move
    simp only [Function.comp, put_only hi, tell_only, only_all_only]

theorem wake?_only (hi : keep i = true) (b : Board α) :
    (b.only keep).wake? (rank keep i) = (b.wake? i).map (·.only keep) := by
  unfold wake?
  rw [getElem?_only hi]
  cases b.retrievals[i]? with
  | none => rfl
  | some r =>
    show (if r.canWake b.now then some _ else none) = Option.map _ (if r.canWake b.now then _ else _)
    rw [put_only hi, apply_ite (Option.map _)]
    rfl

theorem abandon?_only (hi : keep i = true) (b : Board α) :
    (b.only keep).abandon? (rank keep i) = (b.abandon? i).map (·.only keep) := by
  unfold abandon?
  rw [getElem?_only hi]
  cases b.retrievals[i]? with
  | none => rfl
  | some r =>
    show (if r.isParked then some _ else none) = Option.map _ (if r.isParked then _ else _)
    rw [put_only hi, apply_ite (Option.map _)]
    rfl

/-- Nothing is seen of a call that is left out. -/
theorem only_of_ask? (hi : keep i = false) {c : Board α} {e : Option Event}
    (h : b.ask? i = some (c, e)) : c.only keep = b.only keep := by
  unfold ask? at h
  split at h
  · cases h
  · obtain ⟨move, -, heq⟩ := Option.map_eq_some_iff.1 h
    cases heq
    rw [tell_only, put_only_of_not hi]

theorem only_of_wake? (hi : keep i = false) {c : Board α} (h : b.wake? i = some c) :
    c.only keep = b.only keep := by
  obtain ⟨r, -, -, rfl⟩ := of_wake? h
  exact put_only_of_not hi b _

theorem only_of_abandon? (hi : keep i = false) {c : Board α} (h : b.abandon? i = some c) :
    c.only keep = b.only keep := by
  obtain ⟨r, -, rfl⟩ := of_abandon? h
  exact put_only_of_not hi b _

end Board

namespace Service

variable {α : Type} {s t : Service α} {keep : Nat → Bool} {id : Nat} {g : Generation}

/-- What is seen of the service where only some of the calls are made: all but the other calls, the
sink, and the numbers of the events. -/
def only (keep : Nat → Bool) (s : Service α) : Service α :=
  { s with
    board := s.board.only keep
    attempts := s.attempts.map (·.unstamped)
    nextSeq := 0 }

/-- The service without calls. -/
def core (s : Service α) : Service α := s.only fun _ => false

/-- What is seen of a step. -/
def seen (keep : Nat → Bool) (result : Service α × List Stamped) : Service α × List Event :=
  (result.1.only keep, result.2.map (·.event))

/-! ## The parts of a step -/

@[simp] theorem now_only (keep : Nat → Bool) (s : Service α) : (s.only keep).now = s.now := rfl

@[simp] theorem config_only (keep : Nat → Bool) (s : Service α) :
    (s.only keep).config = s.config := rfl

theorem attempt?_only (keep : Nat → Bool) (s : Service α) (g : Generation) :
    (s.only keep).attempt? g = (s.attempt? g).map (·.unstamped) := by
  show (s.attempts.map (·.unstamped)).find? _ = _
  rw [List.find?_map]
  rfl

theorem isFinished_only (keep : Nat → Bool) (s : Service α) (g : Generation) :
    (s.only keep).isFinished g = s.isFinished g := by
  unfold isFinished
  rw [attempt?_only]
  cases s.attempt? g with
  | none => rfl
  | some a => exact a.isFinished_unstamped

/-- An update of attempts that leaves the numbers of events alone is seen as such. -/
theorem updateAttempt_only {f f' : Attempt α → Attempt α} (keep : Nat → Bool) (s : Service α)
    (g : Generation) (hf : ∀ a, (f a).unstamped = f' a.unstamped) :
    (s.updateAttempt g f).only keep = (s.only keep).updateAttempt g f' := by
  have hattempts : (s.updateAttempt g f).attempts.map (·.unstamped) =
      ((s.only keep).updateAttempt g f').attempts := by
    simp only [updateAttempt, only, List.map_map]
    refine List.map_congr_left fun a _ => ?_
    simp only [Function.comp]
    have hg : a.unstamped.generation = a.generation := rfl
    rw [hg]
    split
    · exact hf a
    · rfl
  show { s with board := _, attempts := _, nextSeq := 0 } = _
  rw [hattempts]
  rfl

theorem cancelAttempt_only (keep : Nat → Bool) (s : Service α) (g : Generation) :
    (s.cancelAttempt g).only keep = (s.only keep).cancelAttempt g :=
  updateAttempt_only keep s g fun _ => rfl

theorem callOff_only (keep : Nat → Bool) (s : Service α) (g : Generation) :
    (s.callOff g).only keep = (s.only keep).callOff g :=
  updateAttempt_only keep s g fun _ => rfl

theorem callOffRun_only (keep : Nat → Bool) (s : Service α) (id : Nat) :
    (s.callOffRun id).only keep = (s.only keep).callOffRun id := by
  have hattempts : (s.callOffRun id).attempts.map (·.unstamped) =
      ((s.only keep).callOffRun id).attempts := by
    simp only [callOffRun, only, List.map_map]
    refine List.map_congr_left fun a _ => ?_
    simp only [Function.comp]
    have hrun : a.unstamped.run = a.run := rfl
    rw [hrun]
    split <;> rfl
  show { s with board := _, attempts := _, nextSeq := 0 } = _
  rw [hattempts]
  rfl

theorem hasNews_only (keep : Nat → Bool) (s : Service α) (id : Nat) :
    (s.only keep).hasNews id = s.hasNews id := by
  show (s.attempts.map (·.unstamped)).any _ = _
  rw [List.any_map]
  refine congrArg (s.attempts.any ·) (funext fun a => ?_)
  exact congrArg (decide (a.run = id) && ·) a.isUnnoted_unstamped

theorem map_noteUpTo (id n : Nat) (list : List (Attempt α)) :
    (noteUpTo id n list).map (·.unstamped) = noteUpTo id n (list.map (·.unstamped)) := by
  induction list generalizing n with
  | nil => cases n <;> rfl
  | cons a rest ih =>
    cases n with
    | zero => rfl
    | succ n =>
      have hrun : a.unstamped.run = a.run := rfl
      rw [List.map_cons, noteUpTo, noteUpTo, hrun, a.isUnnoted_unstamped]
      split
      · rw [List.map_cons, ih]
        rfl
      · rw [List.map_cons, ih]

theorem note_only (keep : Nat → Bool) (s : Service α) (id n : Nat) :
    (s.note id n).only keep = (s.only keep).note id n := by
  unfold note
  rw [hasNews_only]
  split
  · show { s with board := _, attempts := (noteUpTo id n s.attempts).map _, nextSeq := 0 } = _
    rw [map_noteUpTo]
    rfl
  · rfl

theorem noteAll_only (keep : Nat → Bool) (s : Service α) (id : Nat) :
    (s.noteAll id).only keep = (s.only keep).noteAll id := by
  have hlength : (s.only keep).attempts.length = s.attempts.length := List.length_map _
  unfold noteAll
  rw [note_only, hlength]

theorem outstanding_only (keep : Nat → Bool) (s : Service α) (id : Nat) :
    (s.only keep).outstanding id = (s.outstanding id).map (·.unstamped) := by
  show (s.attempts.map (·.unstamped)).filter _ = _
  rw [List.filter_map]
  rfl

theorem map_unstamped_twice (list : List (Attempt α)) :
    (list.map Attempt.unstamped).map Attempt.unstamped = list.map Attempt.unstamped := by
  rw [List.map_map]
  exact List.map_congr_left fun a _ => a.unstamped_unstamped

theorem only_all_only (keep : Nat → Bool) (s : Service α) :
    (s.only keep).only (fun _ => true) = s.only keep := by
  show { s with
    board := (s.board.only keep).only _
    attempts := (s.attempts.map Attempt.unstamped).map Attempt.unstamped
    nextSeq := 0 } = _
  rw [Board.only_all_only, map_unstamped_twice]
  rfl

/-- A step without a word is seen where the state after it is. -/
theorem seen_silent {t' : Service α} (h : t' = t.only keep) :
    seen (fun _ => true) (t', []) = seen keep (t, []) := by
  rw [h]
  exact congrArg (·, []) (only_all_only keep t)

theorem seen_announce {t' : Service α} (h : t' = t.only keep) (e : Event) :
    seen (fun _ => true) (t'.announce e) = seen keep (t.announce e) := by
  rw [h]
  exact congrArg (·, [e]) (only_all_only keep t)

/-! ## Steps of runs -/

theorem poll?_only (keep : Nat → Bool) (s : Service α) (r : Run) :
    (s.only keep).poll? r = (s.poll? r).map (·.only keep) := by
  unfold poll?
  cases r.stage with
  | waiting wake =>
    show (if wake ≤ s.now then some (if r.isNews s.text then _ else _) else none) =
      Option.map _ (if wake ≤ s.now then some (if r.isNews s.text then _ else _) else none)
    rw [← noteAll_only]
    split
    · split <;> rfl
    · rfl
  | _ => rfl

theorem pollFails?_only (keep : Nat → Bool) (s : Service α) (r : Run) (reason : String) :
    (s.only keep).pollFails? r reason = (s.pollFails? r reason).map (·.only keep) := by
  unfold pollFails?
  cases r.stage with
  | waiting wake =>
    show (if wake ≤ s.now then some (((s.moveRun r.id (.dead reason)).only keep).callOffRun r.id)
      else none) = Option.map _ (if wake ≤ s.now then _ else none)
    rw [← callOffRun_only]
    split <;> rfl
  | _ => rfl

theorem leave?_only (keep : Nat → Bool) (s : Service α) (r : Run) :
    (s.only keep).leave? r = (s.leave? r).map (·.only keep) := by
  unfold leave?
  cases r.stage with
  | waiting wake => cases r.cancelled <;> rfl
  | _ => rfl

theorem drained?_only (keep : Nat → Bool) (s : Service α) (r : Run) :
    (s.only keep).drained? r = (s.drained? r).map (·.only keep) := by
  unfold drained?
  cases r.stage with
  | draining since =>
    dsimp only
    rw [← note_only, outstanding_only, List.isEmpty_map]
    split <;> rfl
  | _ => rfl

theorem graceEnds?_only (keep : Nat → Bool) (s : Service α) (r : Run) :
    (s.only keep).graceEnds? r = (s.graceEnds? r).map (·.only keep) := by
  unfold graceEnds?
  cases r.stage with
  | draining since =>
    dsimp only
    rw [← note_only, outstanding_only, List.isEmpty_map, List.length_map, now_only, config_only]
    split <;> rfl
  | _ => rfl

theorem glance?_only (keep : Nat → Bool) (s : Service α) (r : Run) :
    (s.only keep).glance? r = (s.glance? r).map (·.only keep) := by
  unfold glance?
  cases r.stage with
  | draining since =>
    dsimp only
    rw [← note_only, hasNews_only]
    split <;> rfl
  | _ => rfl

theorem proceed?_only (keep : Nat → Bool) (s : Service α) (r : Run) :
    ((s.only keep).proceed? r).map (seen fun _ => true) = (s.proceed? r).map (seen keep) := by
  unfold proceed?
  cases r.stage with
  | noticed text | superseding text _ | announcing text _ | reportingGrace n | closing result =>
    refine congrArg some (seen_announce ?_ _)
    rfl
  | looking text =>
    dsimp only
    cases r.previous with
    | none =>
      refine congrArg some (seen_silent ?_)
      rfl
    | some g =>
      dsimp only
      rw [isFinished_only]
      split
      · refine congrArg some (seen_silent ?_)
        rfl
      · refine congrArg some (seen_silent ?_)
        rfl
  | cancelling text g =>
    refine congrArg some (seen_silent ?_)
    rw [← cancelAttempt_only]
    rfl
  | callingOff text g =>
    refine congrArg some (seen_silent ?_)
    rw [← callOff_only]
    rfl
  | numbering text | raising text g =>
    refine congrArg some (seen_silent ?_)
    rfl
  | launching text g =>
    refine congrArg some (seen_silent ?_)
    have hlaunched : ({ s.only keep with attempts := (s.only keep).attempts ++
        [{ generation := g, run := r.id, source := text }] } : Service α) =
        (s.launched r.id text g).only keep := by
      simp only [only, launched, List.map_append]
      rfl
    rw [hlaunched, ← noteAll_only]
    rfl
  | overdue n =>
    dsimp only
    cases r.previous with
    | none =>
      refine congrArg some (seen_silent ?_)
      rfl
    | some g =>
      refine congrArg some (seen_silent ?_)
      dsimp only
      rw [← cancelAttempt_only]
      rfl
  | givingUp n =>
    dsimp only
    cases r.previous with
    | none =>
      refine congrArg some (seen_silent ?_)
      rfl
    | some g =>
      refine congrArg some (seen_silent ?_)
      dsimp only
      rw [← callOff_only]
      rfl
  | waiting _ | draining _ | ended _ | dead _ => rfl

/-! ## Steps of attempts -/

theorem take?_only (keep : Nat → Bool) (s : Service α) (a : Attempt α) :
    (s.only keep).take? a.unstamped = (s.take? a).map (·.only keep) := by
  have htaken (a : Attempt α) : (taken s.now a).unstamped = taken s.now a.unstamped := by
    have hoff : a.unstamped.calledOff = a.calledOff := rfl
    unfold taken
    rw [hoff]
    split <;> rfl
  have hupdate := updateAttempt_only keep s a.generation htaken
  obtain ⟨_, _, _, _, _, _, _, _, stage⟩ := a
  cases stage with
  | queued => exact congrArg some hupdate.symm
  | _ => rfl

theorem cancelItself?_only (keep : Nat → Bool) (s : Service α) (a : Attempt α) :
    (s.only keep).cancelItself? a.unstamped = (s.cancelItself? a).map (·.only keep) := by
  unfold cancelItself?
  rw [a.isCompiling_unstamped]
  split
  · exact congrArg some (cancelAttempt_only keep s a.generation).symm
  · rfl

theorem unstamped_answered (now : Nat) (outcome : Outcome α) (a : Attempt α) :
    (answered now outcome a).unstamped = answered now outcome a.unstamped := by
  unfold answered Attempt.unstamped
  simp only
  cases outcome with
  | value v => rfl
  | refused why => cases why <;> rfl
  | panicked payload => rfl

theorem compiled?_only (keep : Nat → Bool) (s : Service α) (a : Attempt α) (outcome : Outcome α) :
    (s.only keep).compiled? a.unstamped outcome = (s.compiled? a outcome).map (·.only keep) := by
  have hupdate := updateAttempt_only keep s a.generation (unstamped_answered s.now outcome)
  obtain ⟨_, _, _, _, _, _, _, _, stage⟩ := a
  cases stage with
  | compiling => exact congrArg some hupdate.symm
  | _ => rfl

/-- The service after the calls were notified. -/
def notified (s : Service α) : Service α := { s with board := s.board.notify }

/-- The state after what is seen of a step of an attempt, and what is sent. -/
def reveal (s : Service α) (g : Generation) (x : Attempt.Glimpse α) : Service α × List Event :=
  let s := (s.putSlot x.slot).updateAttempt g fun _ => x.attempt
  (if x.notifies then s.notified else s, x.sent.toList)

theorem notified_only (keep : Nat → Bool) (s : Service α) :
    s.notified.only keep = (s.only keep).notified := by
  show { s with board := _, attempts := _, nextSeq := 0 } =
    { s.only keep with board := (s.board.only keep).notify }
  rw [Board.notify_only]
  rfl

theorem seen_finish? (keep : Nat → Bool) (s : Service α) (a : Attempt α) :
    (s.finish? a).map (seen keep) =
      ((a.next? s.nextSeq s.slot).map (·.seen)).map ((s.only keep).reveal a.generation) := by
  unfold finish?
  rw [Option.map_map, Option.map_map]
  refine congrArg (Option.map · _) (funext fun move => ?_)
  have hupdate : ((s.putSlot move.slot).updateAttempt a.generation fun _ => move.attempt).only keep =
      ((s.only keep).putSlot move.slot).updateAttempt a.generation
        fun _ => move.attempt.unstamped :=
    updateAttempt_only keep (s.putSlot move.slot) a.generation fun _ => rfl
  show seen keep (if move.stamps then _ else _, move.sent.toList) =
    (if move.notifies then _ else _, (move.sent.map (·.event)).toList)
  refine Prod.ext ?_ ?_
  · show (if move.stamps then _ else _ : Service α).only keep = _
    cases move.stamps <;> cases move.notifies
    · exact hupdate
    · exact (notified_only keep _).trans (congrArg notified hupdate)
    · exact hupdate
    · exact (notified_only keep _).trans (congrArg notified hupdate)
  · cases move.sent <;> rfl

theorem finish?_only (keep : Nat → Bool) (s : Service α) (a : Attempt α) :
    ((s.only keep).finish? a.unstamped).map (seen fun _ => true) =
      (s.finish? a).map (seen keep) := by
  have hnext := a.next?_unstamped (s.only keep).nextSeq s.nextSeq s.slot
  rw [seen_finish?, seen_finish?, only_all_only]
  exact congrArg (Option.map _) hnext

/-! ## Steps of the whole service -/

/-- What is left of an action where only some of the calls are made. The calls that are made take
the places of those that are left out. -/
def kept? (keep : Nat → Bool) (s : Service α) : Action α → Option (Action α)
  | .retrieve label code timeout =>
    if keep s.board.retrievals.size then some (.retrieve label code timeout) else none
  | .ask i => if keep i then some (.ask (rank keep i)) else none
  | .wake i => if keep i then some (.wake (rank keep i)) else none
  | .abandon i => if keep i then some (.abandon (rank keep i)) else none
  | action => some action

/-- A silent step is seen as such where the state after it is. -/
theorem map_seen_silent {step step' : Option (Service α)} (h : step' = step.map (·.only keep)) :
    (silent step').map (seen fun _ => true) = (silent step).map (seen keep) := by
  subst h
  cases step with
  | none => rfl
  | some t => exact congrArg some (seen_silent rfl)

theorem silent_run (found : Option Run) {f f' : Run → Option (Service α)}
    (hf : ∀ r, f' r = (f r).map (·.only keep)) :
    (silent (found.bind f')).map (seen fun _ => true) = (silent (found.bind f)).map (seen keep) := by
  cases found with
  | none => rfl
  | some r => exact map_seen_silent (hf r)

theorem silent_attempt (found : Option (Attempt α)) {f f' : Attempt α → Option (Service α)}
    (hf : ∀ a, f' a.unstamped = (f a).map (·.only keep)) :
    (silent ((found.map (·.unstamped)).bind f')).map (seen fun _ => true) =
      (silent (found.bind f)).map (seen keep) := by
  cases found with
  | none => rfl
  | some a => exact map_seen_silent (hf a)

theorem start_only (keep : Nat → Bool) (s : Service α) :
    seen (fun _ => true) (s.only keep).start = seen keep s.start := by
  have hrunning : (s.only keep).isRunning = s.isRunning := rfl
  unfold Service.start
  rw [hrunning]
  split
  · exact seen_silent rfl
  · refine seen_announce ?_ _
    rfl

theorem stop_only (keep : Nat → Bool) (s : Service α) :
    (s.only keep).stop = s.stop.only keep := by
  obtain ⟨_, _, _, _, _, handle, _, _, _, _⟩ := s
  cases handle <;> rfl

theorem drop_only (keep : Nat → Bool) (s : Service α) :
    (s.only keep).drop = s.drop.only keep := by
  obtain ⟨_, _, _, _, _, handle, _, _, _, _⟩ := s
  cases handle <;> rfl

theorem tellRun?_only (keep : Nat → Bool) (s : Service α) (n : Nat) :
    (s.only keep).tellRun? n = (s.tellRun? n).map (·.only keep) := by
  have hstops : (s.only keep).stops[n]? = s.stops[n]? := rfl
  unfold tellRun?
  rw [hstops]
  cases s.stops[n]? with
  | none => rfl
  | some call =>
    obtain ⟨run, begun, stage⟩ := call
    cases stage <;> cases run <;> rfl

theorem stopReturns?_only (keep : Nat → Bool) (s : Service α) (n : Nat) :
    (s.only keep).stopReturns? n = (s.stopReturns? n).map (·.only keep) := by
  have hstops : (s.only keep).stops[n]? = s.stops[n]? := rfl
  unfold stopReturns?
  rw [hstops]
  cases s.stops[n]? with
  | none => rfl
  | some call =>
    have hruns : (call.run.bind (s.only keep).run?).bind (·.result?) =
        (call.run.bind s.run?).bind (·.result?) := rfl
    dsimp only
    rw [hruns]
    cases call.stage <;> cases (call.run.bind s.run?).bind (·.result?) <;> rfl

theorem of_ite {p : Bool} {a b : Action α} (h : (if p then some a else none) = some b) :
    p = true ∧ a = b := by
  cases p with
  | true => exact ⟨rfl, Option.some.inj h⟩
  | false => cases h

theorem seen_ask? (keep : Nat → Bool) (s : Service α) (i : Nat) :
    (s.ask? i).map (seen keep) = (s.board.ask? i).map fun (c, e) =>
      ({ s.only keep with board := c.only keep }, e.toList) := by
  unfold Service.ask?
  rw [Option.map_map]
  refine congrArg (Option.map · _) (funext fun (c, e) => ?_)
  cases e <;> rfl

/-- A call that is kept goes on as it did, and says the same. -/
theorem ask?_only {i : Nat} (hi : keep i = true) (s : Service α) :
    ((s.only keep).ask? (rank keep i)).map (seen fun _ => true) = (s.ask? i).map (seen keep) := by
  have hboard := congrArg (Option.map fun (c, e) => ({ s.only keep with board := c }, e.toList))
    (Board.ask?_only hi s.board)
  rw [Option.map_map, Option.map_map] at hboard
  rw [seen_ask?, seen_ask?, only_all_only]
  exact hboard

/-- What is seen of the service goes the way of the service. -/
theorem step?_only {action action' : Action α} (h : s.kept? keep action = some action') :
    ((s.only keep).step? action').map (seen fun _ => true) = (s.step? action).map (seen keep) := by
  cases action with
  | tick | edit text =>
    cases h
    refine congrArg some (seen_silent ?_)
    rfl
  | start =>
    cases h
    show (if s.owned then some (s.only keep).start else none).map _ =
      (if s.owned then some s.start else none).map _
    split
    · exact congrArg some (start_only keep s)
    · rfl
  | stop =>
    cases h
    show (if s.owned then some ((s.only keep).stop, []) else none).map _ =
      (if s.owned then some (s.stop, []) else none).map _
    split
    · exact congrArg some (seen_silent (stop_only keep s))
    · rfl
  | drop =>
    cases h
    show (if s.owned then some ((s.only keep).drop, []) else none).map _ =
      (if s.owned then some (s.drop, []) else none).map _
    split
    · exact congrArg some (seen_silent (drop_only keep s))
    · rfl
  | tellRun n => cases h; exact map_seen_silent (tellRun?_only keep s n)
  | stopReturns n => cases h; exact map_seen_silent (stopReturns?_only keep s n)
  | poll id => cases h; exact silent_run (s.run? id) (poll?_only keep s)
  | pollFails id reason =>
    cases h
    exact silent_run (s.run? id) fun r => pollFails?_only keep s r reason
  | leave id => cases h; exact silent_run (s.run? id) (leave?_only keep s)
  | drained id => cases h; exact silent_run (s.run? id) (drained?_only keep s)
  | graceEnds id => cases h; exact silent_run (s.run? id) (graceEnds?_only keep s)
  | glance id => cases h; exact silent_run (s.run? id) (glance?_only keep s)
  | proceed id =>
    cases h
    show ((s.run? id).bind (s.only keep).proceed?).map _ = ((s.run? id).bind s.proceed?).map _
    cases s.run? id with
    | none => rfl
    | some r => exact proceed?_only keep s r
  | take g =>
    cases h
    show (silent (((s.only keep).attempt? g).bind _)).map _ = _
    rw [attempt?_only]
    exact silent_attempt (s.attempt? g) (take?_only keep s)
  | cancelItself g =>
    cases h
    show (silent (((s.only keep).attempt? g).bind _)).map _ = _
    rw [attempt?_only]
    exact silent_attempt (s.attempt? g) (cancelItself?_only keep s)
  | compiled g outcome =>
    cases h
    show (silent (((s.only keep).attempt? g).bind _)).map _ = _
    rw [attempt?_only]
    exact silent_attempt (s.attempt? g) fun a => compiled?_only keep s a outcome
  | finish g =>
    cases h
    show (((s.only keep).attempt? g).bind _).map _ = ((s.attempt? g).bind s.finish?).map _
    rw [attempt?_only]
    cases s.attempt? g with
    | none => rfl
    | some a => exact finish?_only keep s a
  | retrieve label code timeout =>
    obtain ⟨hkeep, rfl⟩ := of_ite h
    refine congrArg some (seen_silent ?_)
    rw [only, only, ← Board.call_only hkeep]
  | ask i =>
    obtain ⟨hkeep, rfl⟩ := of_ite h
    exact ask?_only hkeep s
  | wake i =>
    obtain ⟨hkeep, rfl⟩ := of_ite h
    refine map_seen_silent ?_
    show ((s.board.only keep).wake? (rank keep i)).map _ = _
    rw [Board.wake?_only hkeep, Option.map_map, Option.map_map]
    rfl
  | abandon i =>
    obtain ⟨hkeep, rfl⟩ := of_ite h
    refine map_seen_silent ?_
    show ((s.board.only keep).abandon? (rank keep i)).map _ = _
    rw [Board.abandon?_only hkeep, Option.map_map, Option.map_map]
    rfl

end Service

end CompileWatch
