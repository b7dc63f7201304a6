import CompileWatch.Proofs.Deliveries
import CompileWatch.Proofs.Drains
import CompileWatch.Proofs.Records
import CompileWatch.Proofs.Retrievals
import CompileWatch.Simulation.Schedule
import CompileWatch.Steps

/-!
# Turns come to an end

The tasks of a simulation take steps as long as there are any, but no more than so many in one turn.
A run, a retrieval and an attempt have less left to do after each step of their own, and never more
than there may be steps, so that nothing is left to do at the end of a turn. The line of tasks is
another matter: it makes no difference how many turns there may be once nobody is in line, but a
subscriber that panics over the reports of its own panics keeps the line busy for ever.
-/
namespace CompileWatch

/-! ## What is left to do -/

/-- At most so many steps of its own are left to a run until it sleeps, waits for its attempts or is
over. -/
def Run.stepsLeft (r : Run) : Nat := r.stepsToLaunch + r.stepsToEnd

theorem Run.stepsLeft_le (r : Run) : r.stepsLeft ≤ 9 := by
  unfold stepsLeft stepsToLaunch stepsToEnd
  cases r.stage <;> simp

/-- At most so many steps of its own are left to a retrieval until it sleeps or is over. -/
def Retrieval.stepsLeft {α : Type} (r : Retrieval α) : Nat :=
  match r.stage with
  | .arming => 5
  | .checking => 4
  | .testing => 3
  | .matched .. | .overdue _ => 2
  | .reporting .. => 1
  | .parked _ | .settled .. | .abandoned => 0

theorem Retrieval.stepsLeft_le {α : Type} (r : Retrieval α) : r.stepsLeft ≤ 5 := by
  unfold stepsLeft
  split <;> decide

theorem Retrieval.MoveStep.stepsLeft_lt {α : Type} {now : Nat} {slot : Slot α} {poll : Span}
    {r : Retrieval α} {move : Retrieval.Move α} (h : r.MoveStep now slot poll move) :
    move.retrieval.stepsLeft < r.stepsLeft := by
  cases h <;> simp [stepsLeft, *]

/-- At most so many steps of its own are left to an attempt whose compiler has come back. -/
def Attempt.stepsLeft {α : Type} (a : Attempt α) : Nat :=
  match a.stage with
  | .panicking _ => 7
  | .sendingPanic .. => 6
  | .offering _ => 5
  | .stored _ => 4
  | .concluding _ => 3
  | .sending .. => 2
  | .leaving _ => 1
  | .queued | .compiling | .finished _ => 0

theorem Attempt.stepsLeft_le {α : Type} (a : Attempt α) : a.stepsLeft ≤ longestTail := by
  unfold stepsLeft
  split <;> decide

theorem Attempt.MoveStep.stepsLeft_lt {α : Type} {seq : Nat} {slot : Slot α} {a : Attempt α}
    {move : Attempt.Move α} (h : a.MoveStep seq slot move) :
    move.attempt.stepsLeft < a.stepsLeft := by
  cases h <;> simp [stepsLeft, *]

namespace Service

variable {α : Type} {s t : Service α} {sent : List Stamped} {id i : Nat} {g : Generation}

theorem RunStep.stepsLeft_lt {r r' : Run} (h : RunStep s r (.proceed r.id) r' t sent) :
    r'.stepsLeft < r.stepsLeft := by
  cases h <;> simp [Run.stepsLeft, Run.stepsToLaunch, Run.stepsToEnd, *]

/-- A run has no step of its own left exactly if nothing is left for it to do. -/
theorem proceed?_eq_none_iff {r : Run} : s.proceed? r = none ↔ r.stepsLeft = 0 := by
  unfold proceed? Run.stepsLeft Run.stepsToLaunch Run.stepsToEnd
  cases r.stage <;> simp
  case looking =>
    split
    · simp
    · split <;> simp

/-- Where there may be nobody who has anything to do, there is no more to do than anybody has. -/
theorem elim_zero_le {β : Type} {left : β → Nat} {n : Nat} (h : ∀ b, left b ≤ n) (o : Option β) :
    o.elim 0 left ≤ n := by
  cases o with
  | none => exact Nat.zero_le n
  | some b => exact h b

/-- What is left to do for the run `id`. -/
def runLeft (id : Nat) (s : Service α) : Nat := (s.run? id).elim 0 (·.stepsLeft)

/-- What is left to do for the `i`-th retrieval. -/
def callLeft (i : Nat) (s : Service α) : Nat := (s.board.retrievals[i]?).elim 0 (·.stepsLeft)

/-- What is left to do for the attempt `g` since its compiler has come back. -/
def attemptLeft (g : Generation) (s : Service α) : Nat := (s.attempt? g).elim 0 (·.stepsLeft)

theorem runLeft_le (id : Nat) (s : Service α) : s.runLeft id ≤ 9 :=
  elim_zero_le Run.stepsLeft_le _

theorem callLeft_le (i : Nat) (s : Service α) : s.callLeft i ≤ 5 :=
  elim_zero_le Retrieval.stepsLeft_le _

theorem attemptLeft_le (g : Generation) (s : Service α) :
    s.attemptLeft g ≤ Attempt.longestTail :=
  elim_zero_le Attempt.stepsLeft_le _

theorem runLeft_lt (h : s.step? (.proceed id) = some (t, sent)) : t.runLeft id < s.runLeft id := by
  obtain ⟨r, hr, hproceed⟩ := Option.bind_eq_some_iff.1 h
  obtain ⟨r', hstep⟩ := RunStep.of_proceed? hproceed
  obtain rfl := id_of_run? hr
  have hr' : t.run? r.id = some r' := by
    rw [hstep.run? hr, if_pos rfl]
  unfold runLeft
  rw [hr, hr']
  exact hstep.stepsLeft_lt

theorem callLeft_lt (h : s.step? (.ask i) = some (t, sent)) : t.callLeft i < s.callLeft i := by
  obtain ⟨⟨board, event⟩, hask, ht⟩ := Option.map_eq_some_iff.1 h
  obtain ⟨r, move, hr, hmove, -, -, hput⟩ := Board.of_ask? hask
  have hboard : t.board = board := by
    cases event <;> cases ht <;> rfl
  have hr' : t.board.retrievals[i]? = some move.retrieval := by
    rw [hboard, hput, if_pos rfl]
  unfold callLeft
  rw [hr, hr']
  exact hmove.stepsLeft_lt

theorem attemptLeft_lt (h : s.step? (.finish g) = some (t, sent)) :
    t.attemptLeft g < s.attemptLeft g := by
  obtain ⟨a, ha, hfinish⟩ := Option.bind_eq_some_iff.1 h
  obtain ⟨a', hstep⟩ := AttemptStep.of_finish? hfinish
  obtain rfl := generation_of_attempt? ha
  have ha' : t.attempt? a.generation = some a' := by
    rw [hstep.attempt? ha, if_pos rfl]
  unfold attemptLeft
  rw [ha, ha']
  cases hstep with
  | move hmove => exact (Attempt.MoveStep.of_next? hmove).stepsLeft_lt

theorem step?_proceed_eq_none_iff : s.step? (.proceed id) = none ↔ s.runLeft id = 0 := by
  unfold runLeft
  show (s.run? id).bind s.proceed? = none ↔ _
  cases s.run? id with
  | none => simp
  | some r => exact proceed?_eq_none_iff

/-- A worker that takes an attempt leaves the runs alone. -/
theorem run?_of_take (h : s.step? (.take g) = some (t, sent)) (id : Nat) :
    t.run? id = s.run? id := by
  cases Step.of_step? h with
  | run _ h => cases h
  | attempt _ h => exact h.run? id

end Service

namespace Simulation

variable {s t : Simulation} {a : Action Int64} {m n : Nat}

/-! ## The steps of one turn -/

theorem perform?_eq_none_iff : s.perform? a = none ↔ s.service.step? a = none :=
  Option.map_eq_none_iff

theorem loops_performUpTo (a : Action Int64) : Loops (perform? · a) (performUpTo · · a) where
  zero _ := rfl
  succ n s := by
    show performUpTo (n + 1) s a = _
    rw [performUpTo]
    cases s.perform? a <;> rfl

theorem loops_finishAttempt (g : Generation) :
    Loops (fun s => (s.perform? (.finish g)).map wakeDue) (finishAttempt · · g) where
  zero _ := rfl
  succ n s := by
    show finishAttempt (n + 1) s g = _
    rw [finishAttempt]
    cases s.perform? (.finish g) <;> rfl

/-- What a task does with its turn is enough if every step leaves it less to do, and there is never
more to do than it may take steps. -/
theorem performUpTo_rests (left : Service Int64 → Nat)
    (hless : ∀ {s t : Service Int64} {sent : List Stamped},
      s.step? a = some (t, sent) → left t < left s) (hle : left s.service ≤ n) :
    (s.performUpTo n a).perform? a = none := by
  refine (loops_performUpTo a).rest (left ·.service) ?_ hle
  intro s t h
  obtain ⟨sent, hstep⟩ := exists_of_perform? h
  exact hless hstep

theorem service_wakeStopping (s : Simulation) (g : Generation) :
    (s.wakeStopping g).service = s.service := by
  unfold wakeStopping
  split
  · rfl
  · split
    · split
      · exact s.service_wakeAll _
      · rfl
    · rfl

/-- The workers leave the runs alone. -/
theorem run?_fillWorkers (fuel : Nat) (s : Simulation) (id : Nat) :
    (fillWorkers fuel s).service.run? id = s.service.run? id := by
  induction fuel generalizing s with
  | zero => rfl
  | succ fuel ih =>
    unfold fillWorkers
    split
    · rfl
    · next a _ =>
      split
      · have htaken : (s.perform (.take a.generation)).service.run? id = s.service.run? id := by
          unfold perform
          cases h : s.perform? (.take a.generation) with
          | none => rfl
          | some t =>
            obtain ⟨sent, hstep⟩ := exists_of_perform? h
            exact Service.run?_of_take hstep id
        rw [ih]
        split
        · rw [service_wakeStopping, htaken]
        · show ((s.perform (.take a.generation)).wakeStopping a.generation).service.run? id = _
          rw [service_wakeStopping, htaken]
      · rfl

/-- A run that has had its turn has no step of its own left: it sleeps, waits for its attempts, or
is over. -/
theorem runTurn_rests (s : Simulation) (run : Nat) :
    (s.runTurn run).perform? (.proceed run) = none := by
  have hsteps : (s.runSteps run).perform? (.proceed run) = none := by
    unfold runSteps
    dsimp only
    generalize ((((s.perform (.leave run)).poll run).perform (.drained run)).perform
      (.graceEnds run)).perform (.glance run) = begun
    have hrest := performUpTo_rests (s := begun) (Service.runLeft run) Service.runLeft_lt
      (Service.runLeft_le run _)
    rw [perform?_eq_none_iff, Service.step?_proceed_eq_none_iff] at hrest ⊢
    unfold Service.runLeft
    rw [supplyWorkers, run?_fillWorkers]
    exact hrest
  rw [perform?_eq_none_iff] at hsteps ⊢
  unfold runTurn
  generalize s.runSteps run = after at hsteps ⊢
  dsimp only
  split
  · exact hsteps
  · split
    · exact hsteps
    · split <;> exact hsteps

/-- A retrieval that has had its turn has no step of its own left: it sleeps or is over. -/
theorem retrievalTurn_rests (s : Simulation) (i : Nat) :
    (s.retrievalTurn i).perform? (.ask i) = none := by
  have hrest := performUpTo_rests (s := s.perform (.wake i)) (Service.callLeft i)
    Service.callLeft_lt (Service.callLeft_le i _)
  unfold retrievalTurn
  dsimp only
  split
  · rw [perform?_eq_none_iff] at hrest ⊢
    exact hrest
  · exact hrest

/-- An attempt whose compiler has come back is over when it has taken as many steps as there may
be. -/
theorem finishAttempt_rests (s : Simulation) (g : Generation) :
    (finishAttempt Attempt.longestTail s g).perform? (.finish g) = none := by
  have hrest := (loops_finishAttempt g).rest (s := s) (·.service.attemptLeft g)
    (fun {s t} h => by
      obtain ⟨u, hu, rfl⟩ := Option.map_eq_some_iff.1 h
      obtain ⟨sent, hstep⟩ := exists_of_perform? hu
      show u.wakeDue.service.attemptLeft g < _
      rw [wakeDue, service_wakeAll]
      exact Service.attemptLeft_lt hstep) (s.service.attemptLeft_le g)
  exact Option.map_eq_none_iff.1 hrest

/-! ## Turn after turn -/

/-- A turn of the task whose turn it is, if anybody is in line. -/
def nextTurn? (s : Simulation) : Option Simulation :=
  s.line.next?.map fun (t, line) => { s with line }.turn t

theorem loops_takeTurns : Loops nextTurn? takeTurns where
  zero _ := rfl
  succ n s := by
    rw [takeTurns, nextTurn?]
    cases s.line.next? <;> rfl

/-- Nobody has a turn any more exactly if nobody is in line. -/
theorem nextTurn?_eq_none_iff : s.nextTurn? = none ↔ s.line.toList = [] := by
  rw [nextTurn?, Option.map_eq_none_iff, Line.next?_eq_none_iff]

/-- Once nobody is in line, it makes no difference how many more turns there might be: if so many
are enough, then a phase ends as it ends with so many. -/
theorem follow_eq_takeTurns (hempty : (takeTurns n s).line.toList = []) (hle : n ≤ turns) :
    s.follow = takeTurns n s :=
  loops_takeTurns.eq_of_rest (nextTurn?_eq_none_iff.2 hempty) hle

end Simulation

/-! ## The turns of a crew -/

namespace Crew

@[simp] theorem delivery_rouse (c : Crew) (h : Hand) : (c.rouse h).delivery = c.delivery := by
  unfold rouse
  split
  · rfl
  · cases h <;> rfl

/-- A worker that is done with an event has none in hand. -/
theorem inHand?_finish {c : Crew} {i : Nat} {e : Event} (h : c.inHand? i = some e)
    (m : CrewMember) : (c.finish i m e).inHand? i = none := by
  obtain ⟨s, hs, he⟩ := Option.bind_eq_some_iff.1 h
  have hdone (panic : Option PanicPayload) :
      (c.delivery.perform (.finish i panic)).subscribers[i]? = some { s with inHand := none } := by
    simp only [Delivery.perform, Delivery.step?, hs, Subscriber.finish?, he, Option.map_some,
      Option.getD_some, Delivery.subscribers_report]
    exact List.getElem?_set_self (List.getElem?_eq_some_iff.1 hs).1
  unfold finish inHand?
  rw [delivery_rouse]
  show ((c.delivery.perform (.finish i _)).subscribers[i]?).bind _ = none
  rw [hdone]
  rfl

/-- It makes no difference how many steps a worker may take, if there are more than it has room
for: with an event in hand one step takes no room, and then the next one does. -/
theorem workUpTo_congr {c : Crew} {i fuel more room : Nat}
    (hfuel : 2 * room + (c.inHand? i).isSome.toNat < fuel)
    (hmore : 2 * room + (c.inHand? i).isSome.toNat < more) :
    workUpTo fuel room c i = workUpTo more room c i := by
  induction fuel generalizing c more room with
  | zero => exact absurd hfuel (Nat.not_lt_zero _)
  | succ fuel ih =>
    obtain ⟨more, rfl⟩ := Nat.exists_eq_add_one_of_ne_zero (Nat.ne_zero_of_lt hmore)
    unfold workUpTo
    cases hmember : c.members[i]? with
    | none => rfl
    | some m =>
      cases he : c.inHand? i with
      | none =>
        rw [he] at hfuel hmore
        simp only [Option.isSome_none, Bool.toNat_false, Nat.add_zero] at hfuel hmore
        by_cases hroom : room = 0
        · simp [hroom]
        · simp only [hroom, if_false]
          cases c.delivery.step? (.receive i) with
          | none => rfl
          | some delivery =>
            have hle := Bool.toNat_le ({ c with delivery }.inHand? i).isSome
            exact ih (by omega) (by omega)
      | some e =>
        have hnone := inHand?_finish he m
        rw [he] at hfuel hmore
        simp only [Option.isSome_some, Bool.toNat_true] at hfuel hmore
        have hnext (left : Nat) (hle : left ≤ room) :
            workUpTo fuel left (c.finish i m e) i = workUpTo more left (c.finish i m e) i := by
          apply ih
          · rw [hnone, Option.isSome_none, Bool.toNat_false]
            omega
          · rw [hnone, Option.isSome_none, Bool.toNat_false]
            omega
        dsimp only
        rw [hnext room (Nat.le_refl _), hnext (room - 1) (Nat.sub_le _ _)]

/-- What a worker may do in one turn is limited by the room for it, and by nothing else. -/
theorem workUpTo_turnLength (c : Crew) (i : Nat) {fuel : Nat}
    (hfuel : 2 * Line.turnLength + 2 ≤ fuel) :
    workUpTo fuel Line.turnLength c i =
      workUpTo (2 * Line.turnLength + 2) Line.turnLength c i := by
  have hhand := Bool.toNat_le (c.inHand? i).isSome
  apply workUpTo_congr
  · omega
  · omega

/-! ## A crew that never rests -/

/-- A subscriber that panics over the reports of panics, and what it has seen. -/
def echo (awake : Bool) (seen : List Event) : CrewMember :=
  { habit := { panicsOn := [.subscriberPanicked] }, awake, seen }

/-- The report of its panics. -/
def echoReport : Event := .subscriberPanic "echo" "static text"

/-- The lone subscriber of a crew is idle, and the listener has not seen the newest event. -/
def poised (bus : Bus Event) (seen : List Event) (woken : List Hand) : Crew where
  delivery :=
    { bus, subscribers := [{ name := "echo", capacity := 1 }], position := bus.position - 1 }
  members := [echo false seen]
  woken

/-- The subscriber has been given the newest event. -/
def struck (bus : Bus Event) (e : Event) (seen : List Event) (woken : List Hand) : Crew where
  delivery :=
    { bus, subscribers := [{ name := "echo", capacity := 1, queue := Queue.enqueue {} e }],
      position := bus.position }
  members := [echo true seen]
  listenerAwake := false
  woken

/-- The subscriber has panicked, and has not seen yet that there is nothing else to do. -/
def relapsed (bus : Bus Event) (seen : List Event) (woken : List Hand) : Crew :=
  { poised (bus.publish echoReport) seen woken with members := [echo true seen] }

variable {bus : Bus Event} {e : Event}

theorem step?_listen_newest (hsize : 0 < bus.size) {d : Delivery} (hbus : d.bus = bus.publish e)
    (hposition : d.position = bus.position) (hlistening : d.listening = true)
    (hhanding : d.handing = none) : d.step? .listen =
      some { d with position := bus.position + 1, handing := some (e, 0) } := by
  have hold : d.bus.oldest ≤ d.position := by
    rw [hbus, hposition]
    simp only [Bus.oldest, Bus.publish]
    omega
  have he : d.bus.published[d.position]? = some e := by
    rw [hbus, hposition, Bus.published_publish, ← Bus.length_published]
    exact List.getElem?_concat_length
  have hstep : Delivery.Step d .listen _ := .listen hlistening hhanding hold he
  rw [hstep.step?_eq, hposition]

theorem step?_listen_empty {d : Delivery} (hposition : d.bus.position ≤ d.position) :
    d.step? .listen = none := by
  dsimp only [Delivery.step?]
  rw [Bus.receive_of_position_le hposition]
  cases d.bus.closed <;> simp

/-- The listener hands the newest event out. -/
theorem turn_poised (hsize : 0 < bus.size) (seen : List Event) :
    (poised (bus.publish e) seen []).turn .listener =
      (struck (bus.publish e) e seen [.worker 0], .done) := by
  have hturn (room : Nat) : listenUpTo (room + 1 + 1) (poised (bus.publish e) seen []) =
      ({ struck (bus.publish e) e seen [.worker 0] with listenerAwake := true }, .done) := by
    rw [listenUpTo, step?_listen_newest hsize rfl rfl rfl rfl]
    show listenUpTo (room + 1)
      { struck (bus.publish e) e seen [.worker 0] with listenerAwake := true } = _
    rw [listenUpTo, step?_listen_empty (Nat.le_refl _)]
  rw [turn, Line.turnLength, hturn 126]
  rfl

theorem rouse_relapsed (hsize : 0 < bus.size) (seen : List Event) :
    { relapsed bus seen [] with listenerAwake := false }.rouse .listener =
      relapsed bus seen [.listener] := by
  unfold rouse canGoOn
  rw [step?_listen_newest hsize rfl rfl rfl rfl]
  rfl

/-- The subscriber panics over the newest event, and the report of that is the newest event now. -/
theorem turn_struck (hsize : 0 < bus.size) (he : e.kind = .subscriberPanicked) (seen : List Event) :
    (struck bus e seen []).turn (.worker 0) =
      (poised (bus.publish echoReport) (e :: seen) [.listener], .done) := by
  have hpanics : (echo true seen).habit.panicsOn.contains e.kind = true := by simp [echo, he]
  -- the worker takes the event, is done with it, and finds its queue empty
  have hturn (fuel room : Nat) :
      workUpTo (fuel + 1 + 1 + 1) (room + 1 + 1) (struck bus e seen []) 0 =
        (relapsed bus (e :: seen) [.listener], .done) := by
    rw [workUpTo]
    show workUpTo (fuel + 1 + 1) (room + 1) { struck bus e seen [] with
      delivery := { bus, subscribers := [{ name := "echo", capacity := 1, inHand := some e }],
                    position := bus.position } } 0 = _
    rw [workUpTo]
    show workUpTo (fuel + 1) (room + 1) (finish _ 0 (echo true seen) e) 0 = _
    simp only [finish, hpanics, if_true]
    show workUpTo (fuel + 1) (room + 1)
      ({ relapsed bus (e :: seen) [] with listenerAwake := false }.rouse .listener) 0 = _
    rw [rouse_relapsed hsize, workUpTo]
    rfl
  rw [turn, Line.turnLength, hturn 255 126]
  rfl

end Crew

namespace Simulation

variable {s : Simulation}

/-- A hand that has its turn, alone in line, leaves the turn to the hand that it has woken. -/
theorem nextTurn?_of_turn {h : Hand} (c : Crew) (woken : Hand) (hline : s.line.toList = [.hand h])
    (hturn : s.crew.turn h = ({ c with woken := [woken] }, .done)) :
    ∃ t, s.nextTurn? = some t ∧ t.crew = { c with woken := [] } ∧
      t.line.toList = [.hand woken] := by
  cases hnext : s.line.next? with
  | none => rw [Line.next?_eq_none_iff.1 hnext] at hline; cases hline
  | some next =>
    obtain ⟨task, line⟩ := next
    rw [Line.toList_of_next? hnext, List.cons.injEq] at hline
    obtain ⟨rfl, hempty⟩ := hline
    have hafter : { s with line }.turn (.hand h) =
        { s with crew := { c with woken := [] }, line := line.join (.hand woken) } := by
      show { s with line }.handTurn h = _
      rw [handTurn, hturn]
      rfl
    refine ⟨_, ?_, congrArg crew hafter, ?_⟩
    · rw [nextTurn?, hnext]
      rfl
    · rw [hafter]
      simp only [Line.toList, List.append_eq_nil_iff] at hempty
      simp [Line.toList_join, hempty]

/-- A report of a panic is on its way, and the hand that is to take it up has its turn. -/
inductive Resounds (s : Simulation) : Prop
  | listener {bus : Bus Event} {e : Event} {seen : List Event} : 0 < bus.size →
      e.kind = .subscriberPanicked → s.crew = .poised (bus.publish e) seen [] →
      s.line.toList = [.hand .listener] → Resounds s
  | worker {bus : Bus Event} {e : Event} {seen : List Event} : 0 < bus.size →
      e.kind = .subscriberPanicked → s.crew = .struck bus e seen [] →
      s.line.toList = [.hand (.worker 0)] → Resounds s

theorem Resounds.next (h : s.Resounds) : ∃ t, s.nextTurn? = some t ∧ t.Resounds := by
  cases h with
  | @listener bus e seen hsize he hcrew hline =>
    obtain ⟨t, hnext, hcrew', hline'⟩ := nextTurn?_of_turn (.struck (bus.publish e) e seen [])
      (.worker 0) hline (hcrew ▸ Crew.turn_poised hsize seen)
    have hsize' : 0 < (bus.publish e).size := hsize
    exact ⟨t, hnext, .worker hsize' he hcrew' hline'⟩
  | @worker bus e seen hsize he hcrew hline =>
    obtain ⟨t, hnext, hcrew', hline'⟩ := nextTurn?_of_turn
      (.poised (bus.publish Crew.echoReport) (e :: seen) []) .listener hline
      (hcrew ▸ Crew.turn_struck hsize he seen)
    exact ⟨t, hnext, .listener hsize rfl hcrew' hline'⟩

/-- No number of turns is enough for all simulations: a subscriber that panics over the reports of
its own panics keeps the line busy for ever. -/
theorem exists_never_rests : ∃ s : Simulation, ∀ n, (takeTurns n s).line.toList ≠ [] := by
  let bus : Bus Event := .ofCapacity 1
  let s : Simulation := { ofSetup {} with
    crew := .poised (bus.publish Crew.echoReport) [] []
    line := Line.join {} (.hand .listener) }
  have hsize : 0 < bus.size := Bus.one_le_keptFor 1
  have hs : s.Resounds := .listener hsize rfl rfl rfl
  exact ⟨s, fun n hempty =>
    loops_takeTurns.ne_none Resounds.next hs n (nextTurn?_eq_none_iff.2 hempty)⟩

end Simulation

end CompileWatch
