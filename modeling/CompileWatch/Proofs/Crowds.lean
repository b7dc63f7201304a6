import CompileWatch.Proofs.Drains

/-!
# A crowd of finished attempts

While the workers are busy, a run whose text is edited again and again gathers attempts that are
called off before they begin. When the workers come to them, they are over in no time. If the run is
stopped then and has no grace time, none of its attempts is unfinished; but one look at them takes
note of so many ends only, and the run takes the others for abandoned.
-/
namespace CompileWatch.Service

/-- The text for the attempt `g`; the next attempt has another one. -/
def version (g : Generation) : String := if g % 2 = 0 then "b" else "a"

theorem version_ne_empty (g : Generation) : version g ≠ "" := by
  unfold version
  split <;> decide

theorem version_ne_succ (g : Generation) : version g ≠ version (g + 1) := by
  unfold version
  rcases Nat.mod_two_eq_zero_or_one g with h | h <;> simp [h, Nat.add_mod]

/-- The attempt `g`, handed to the workers. -/
def fresh (g : Generation) : Attempt Nat := { generation := g, run := 1, source := version g }

/-- The attempt `g`, displaced before it has begun. -/
def displaced (g : Generation) : Attempt Nat :=
  { fresh g with cancelled := true, calledOff := true }

/-- An attempt that a worker came to after it was called off. -/
def passedBy (a : Attempt Nat) : Attempt Nat := { a with stage := .finished none }

/-- The run sleeps, and the attempt `n` is its last one. -/
def crowd (n seq : Nat) (attempts : List (Attempt Nat)) : Service Nat :=
  { config := { grace := .ofMillis 0 }
    board := { now := n, slot := { floor := n }, poll := ({} : Config).effectiveRetrievePoll }
    text := version n
    generation := n
    runs :=
      [{ id := 1, lastText := some (version n), previous := some n, stage := .waiting (n + 1) }]
    handle := some 1
    attempts
    nextSeq := seq }

/-! ## How the crowd gathers -/

/-- The run reads the text of the attempt `g`, and displaces its last attempt. -/
def displacing (g : Generation) : List (Action Nat) :=
  [Action.edit (version g), Action.tick, Action.poll 1] ++ List.replicate 9 (Action.proceed 1)

/-- The run starts, and displaces `n` attempts one after the other. -/
def gathering : Nat → List (Action Nat)
  | 0 => [Action.start, Action.tick, Action.poll 1] ++ List.replicate 6 (Action.proceed 1)
  | n + 1 => gathering n ++ displacing (n + 2)

/-- The interval of the polls is one tick. -/
theorem effectivePollInterval_ticks :
    ({ grace := .ofMillis 0 } : Config).effectivePollInterval.ticks = 1 := by
  decide

section Older

variable {n : Nat} {old : List (Attempt Nat)} (hold : ∀ a ∈ old, a.generation ≠ n) (seq : Nat)

include hold

theorem find?_older : old.find? (fun a => a.generation = n) = none := by
  simpa using hold

theorem map_older (f : Attempt Nat → Attempt Nat) :
    (old.map fun a => if a.generation = n then f a else a) = old :=
  (List.map_congr_left fun a ha => if_neg (hold a ha)).trans (List.map_id' old)

theorem steps?_displacing (hunfinished : ∀ a ∈ old, a.isFinished = false) : ∃ sent,
    (crowd n seq (old ++ [fresh n])).steps? (displacing (n + 1)) =
      some (crowd (n + 1) (seq + 3) (old ++ [displaced n] ++ [fresh (n + 1)]), sent) := by
  -- the run finds nothing to take note of
  have hnews : ¬ ∃ a ∈ old, a.run = 1 ∧ a.isUnnoted = true := by
    rintro ⟨a, ha, -, hnews⟩
    simp [Attempt.isUnnoted, hunfinished a ha] at hnews
  have hqueued {a : Attempt Nat} (hstage : a.stage = .queued) :
      a.isFinished = false ∧ a.isUnnoted = false := by
    simp [Attempt.isUnnoted, Attempt.isFinished, hstage]
  simp [displacing, List.replicate, steps?, step?, crowd, silent, run?, poll?, proceed?, now,
    Board.tick, Run.isNews, moveRun, updateRun, announce, version_ne_empty, version_ne_succ,
    isFinished, attempt?, cancelAttempt, callOff, updateAttempt, noteAll, note, hasNews, putSlot,
    slot, Slot.advance, fresh, displaced, nextPoll, effectivePollInterval_ticks, find?_older hold,
    map_older hold, hnews, hqueued]

/-- The last attempt gives up at once. -/
theorem steps?_gaveUp : ∃ a sent, a.run = 1 ∧ a.isUnnoted = true ∧
    (crowd n seq (old ++ [fresh n])).steps?
      ([Action.take n, Action.compiled n (.refused .canceled)] ++
        List.replicate 3 (Action.finish n)) =
      some (crowd n (seq + 1) (old ++ [a]), sent) := by
  simp [List.replicate, steps?, step?, crowd, silent, now, attempt?, updateAttempt, take?, fresh,
    compiled?, finish?, Attempt.next?, Attempt.stageAfter, putSlot, slot, find?_older hold,
    map_older hold, Attempt.isUnnoted, Attempt.isFinished]

end Older

theorem generation_ne {n : Nat} : ∀ a ∈ (List.range' 1 n).map displaced, a.generation ≠ n + 1 := by
  intro a ha
  obtain ⟨g, hg, rfl⟩ := List.mem_map.1 ha
  have hle := (List.mem_range'_1.1 hg).2
  exact Nat.ne_of_lt (Nat.add_comm 1 n ▸ hle)

theorem steps?_gathering (n : Nat) : ∃ sent,
    (ofConfig { grace := .ofMillis 0 } {} (version 1)).steps? (gathering n) =
      some (crowd (n + 1) (3 * (n + 1))
        ((List.range' 1 n).map displaced ++ [fresh (n + 1)]), sent) := by
  induction n with
  | zero => exact ⟨_, rfl⟩
  | succ n ih =>
    obtain ⟨sent, hfirst⟩ := ih
    obtain ⟨more, hnext⟩ := steps?_displacing (generation_ne (n := n)) (3 * (n + 1))
      (List.forall_mem_map.2 fun _ _ => rfl)
    have hrange : (List.range' 1 (n + 1)).map displaced =
        (List.range' 1 n).map displaced ++ [displaced (n + 1)] := by
      rw [List.range'_1_concat, List.map_append, Nat.add_comm 1 n]
      rfl
    rw [hrange]
    exact ⟨_, steps?_append_eq_some hfirst hnext⟩

/-! ## How it is passed by -/

/-- The attempts that workers come to after they were called off are over. -/
theorem steps?_passedBy (n seq : Nat) (done : List (Attempt Nat))
    {waiting rest : List (Attempt Nat)}
    (hnodup : ((done ++ waiting ++ rest).map (·.generation)).Nodup)
    (hwaiting : ∀ a ∈ waiting, a.stage = .queued ∧ a.calledOff = true) :
    (crowd n seq (done ++ waiting ++ rest)).steps? (waiting.map fun a => .take a.generation) =
      some (crowd n seq (done ++ waiting.map passedBy ++ rest), []) := by
  induction waiting generalizing done with
  | nil => simp
  | cons a waiting ih =>
    obtain ⟨⟨hstage, hoff⟩, hlater⟩ := List.forall_mem_cons.1 hwaiting
    have hmiddle : (a.generation :: (done ++ (waiting ++ rest)).map (·.generation)).Nodup := by
      simpa [List.nodup_middle] using hnodup
    have hother : ∀ b ∈ done ++ (waiting ++ rest), b.generation ≠ a.generation :=
      fun b hb heq => (List.nodup_cons.1 hmiddle).1 (heq ▸ List.mem_map_of_mem hb)
    obtain ⟨hdone, hrest⟩ := List.forall_mem_append.1 hother
    have hone : (crowd n seq (done ++ (a :: waiting) ++ rest)).step? (.take a.generation) =
        some (crowd n seq (done ++ [passedBy a] ++ waiting ++ rest), []) := by
      have hsame := map_older hrest
      simp only [List.map_append] at hsame
      simp [step?, crowd, attempt?, find?_older hdone, take?, hstage, hoff, silent, updateAttempt,
        map_older hdone, hsame, passedBy]
    have hnext := ih (done ++ [passedBy a])
      (by simpa [List.nodup_middle, passedBy] using hmiddle) hlater
    rw [List.map_cons, steps?_cons, hone]
    simp only [Option.bind_some, hnext, Option.map_some]
    simp

/-- The run is told to stop when its attempts are finished, the first `n` of them displaced. -/
def crowding (n : Nat) : List (Action Nat) :=
  gathering n ++ ((List.range' 1 n).map displaced).map (fun a => Action.take a.generation) ++
    ([Action.take (n + 1), Action.compiled (n + 1) (.refused .canceled)] ++
      List.replicate 3 (Action.finish (n + 1))) ++ [Action.stop, Action.tellRun 0]

theorem steps?_crowding (n : Nat) : ∃ s u : Service Nat, ∃ sent quiet r a,
    (ofConfig { grace := .ofMillis 0 } {} (version 1)).steps? (crowding n) = some (s, sent) ∧
    s.step? (.leave 1) = some (u, quiet) ∧ u.config.grace = .ofMillis 0 ∧
    u.run? 1 = some r ∧ r.stage = .draining u.now ∧ a.run = 1 ∧ a.isUnnoted = true ∧
    u.attempts = ((List.range' 1 n).map displaced).map passedBy ++ [a] := by
  have hgenerations : ([] ++ (List.range' 1 n).map displaced ++ [fresh (n + 1)]).map
      Attempt.generation = List.range' 1 (n + 1) := by
    simp [List.range'_1_concat, displaced, fresh, Function.comp_def, Nat.add_comm]
  have hwaiting : ∀ a ∈ (List.range' 1 n).map displaced, a.stage = .queued ∧ a.calledOff = true :=
    List.forall_mem_map.2 fun _ _ => ⟨rfl, rfl⟩
  have holder : ∀ a ∈ ((List.range' 1 n).map displaced).map passedBy, a.generation ≠ n + 1 :=
    List.forall_mem_map.2 generation_ne
  obtain ⟨sent, hgathering⟩ := steps?_gathering n
  have hpassedBy := steps?_passedBy (n + 1) (3 * (n + 1)) [] (hgenerations ▸ List.nodup_range')
    hwaiting
  obtain ⟨a, more, hrun, hunnoted, hgaveUp⟩ := steps?_gaveUp holder (3 * (n + 1))
  have hall := steps?_append_eq_some (steps?_append_eq_some hgathering hpassedBy) hgaveUp
  exact ⟨_, _, _, _, _, a, steps?_append_eq_some hall rfl, rfl, rfl, rfl, rfl, hrun, hunnoted, rfl⟩

/-- No attempt is unfinished when the run begins to wait, and it has no grace time. At that tick it
ends with an error, and the error tells of as many attempts as one look took no note of. -/
theorem exists_abandoned_though_finished (n : Nat) : ∃ s u : Service Nat, ∃ sent quiet,
    (ofConfig { grace := .ofMillis 0 } {} (version 1)).steps? (crowding (Line.turnLength + n)) =
      some (s, sent) ∧
    s.step? (.leave 1) = some (u, quiet) ∧ u.unfinished 1 = [] ∧
    u.EndsAlone 1 (.error (.graceExceeded (.ofMillis 0) (n + 1))) := by
  obtain ⟨s, u, sent, quiet, r, a, hsteps, hleave, hgrace, hr, hstage, hrun, hunnoted, hattempts⟩ :=
    steps?_crowding (Line.turnLength + n)
  have hu : u.Reachable := Reachable.step ⟨_, _, _, _, sent, hsteps⟩ hleave
  have hall : ∀ b ∈ u.attempts, (b.run = 1 && b.isUnnoted) = true := by
    rw [hattempts, List.forall_mem_append]
    refine ⟨List.forall_mem_map.2 (List.forall_mem_map.2 fun _ _ => rfl), ?_⟩
    simp [hrun, hunnoted]
  have hlength : (u.unnoted 1).length = Line.turnLength + n + 1 := by
    rw [unnoted, List.filter_eq_self.2 hall, hattempts]
    simp
  have hfinished : u.unfinished 1 = [] := by
    refine List.filter_eq_nil_iff.2 fun b hb => ?_
    have hboth := hall b hb
    simp only [Bool.and_eq_true, Attempt.isUnnoted] at hboth
    simp [hboth.2.1]
  have hleft : u.leftOver 1 = n + 1 := by
    rw [leftOver, hfinished, hlength, List.length_nil]
    omega
  refine ⟨s, u, sent, quiet, hsteps, hleave, hfinished, ?_⟩
  have hends := endsAlone_of_graceEnds hu hr hstage (by rw [hgrace]; exact Nat.le_refl _)
    (by rw [hleft]; exact Nat.succ_ne_zero n)
  rwa [hgrace, hleft] at hends

/-- One finished attempt more than a look takes note of is taken for abandoned. -/
theorem abandoned_though_finished : ∃ s u : Service Nat, ∃ sent quiet,
    (ofConfig { grace := .ofMillis 0 } {} "a").steps? (crowding Line.turnLength) = some (s, sent) ∧
    s.step? (.leave 1) = some (u, quiet) ∧ u.unfinished 1 = [] ∧
    u.EndsAlone 1 (.error (.graceExceeded (.ofMillis 0) 1)) :=
  exists_abandoned_though_finished 0

end CompileWatch.Service
