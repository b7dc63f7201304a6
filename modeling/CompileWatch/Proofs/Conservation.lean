import CompileWatch.Proofs.Cascade
import CompileWatch.Proofs.Records

/-!
# What a subscriber accepted

As long as its worker lives, a subscriber loses, repeats and reorders nothing that it accepted.
What it has accepted and not handled is its load: an offer puts one event at the end of the load, a
handling takes one away at the front, and everything else leaves the load alone. So the handled
events and the load are, at any time, the accepted events.
-/
namespace CompileWatch

namespace Subscriber

/-- What was accepted and is not handled yet, in order. -/
def load (s : Subscriber) : List Event := s.inHand.toList ++ s.queue.toList

/-- The steps that the worker needs until it has handled everything: two for an event in the queue,
one for an event in hand. -/
def work (s : Subscriber) : Nat := 2 * s.queue.size + s.inHand.toList.length

theorem work_eq_zero_iff {s : Subscriber} : s.work = 0 ↔ s.load = [] := by
  rw [work, load, ← List.length_eq_zero_iff, List.length_append, Queue.length_toList]
  omega

/-- What is known of a subscriber with a living worker. -/
structure Served (s : Subscriber) (name : String) (capacity : Nat) : Prop where
  name_eq : s.name = name
  capacity_eq : s.capacity = capacity
  alive : s.alive = true
  /-- The queue never outgrows its places. -/
  bounded : s.queue.size ≤ max 1 capacity

variable {s s' : Subscriber} {name : String} {capacity : Nat}

theorem Served.places (h : s.Served name capacity) : s.places = max 1 capacity := by
  rw [Subscriber.places, h.capacity_eq, Nat.max_comm]

/-- The answer of a subscriber depends on its own queue and on nothing else. -/
theorem Served.verdict (h : s.Served name capacity) :
    s.verdict = if s.queue.size = max 1 capacity then .full else .accepted := by
  have hbounded := h.bounded
  split
  · next hfull => exact verdict_eq_full_iff.2 ⟨h.alive, by rw [h.places]; omega⟩
  · next hroom => exact verdict_eq_accepted_iff.2 ⟨h.alive, by rw [h.places]; omega⟩

end Subscriber

namespace Delivery

variable {d t : Delivery} {action : Action} {actions : List Action} {i : Nat}
  {s s' : Subscriber} {note : Option Note} {name : String} {capacity busCapacity : Nat}
  {crew : List (String × Nat)}

/-- What an offer to the `i`-th subscriber leads to: the event is queued if there is room, and
otherwise the refusal is reported, unless it is the report of one that was refused. -/
def answerTo (d : Delivery) (i : Nat) (s : Subscriber) (e : Event) : Delivery :=
  if s.queue.size = max 1 s.capacity then
    d.report (if e.kind = .subscriberOverflow then none else some (.overflow s.name "full"))
  else d.put i { s with queue := s.queue.enqueue e }

/-- To put a subscriber in its own place changes nothing. -/
theorem put_self (hs : d.subscribers[i]? = some s) : d.put i s = d := by
  obtain ⟨hlt, rfl⟩ := List.getElem?_eq_some_iff.1 hs
  rw [put, List.set_getElem_self]

theorem passOn_eq_answerTo (hs : d.subscribers[i]? = some s) (h : s.Served name capacity)
    (e : Event) : d.passOn i s e = d.answerTo i s e := by
  have hverdict := h.verdict
  unfold passOn answerTo Subscriber.offer Subscriber.refusalReport
  rw [h.capacity_eq]
  by_cases hfull : s.queue.size = max 1 capacity
  · rw [if_pos hfull] at hverdict ⊢
    simp only [hverdict, reduceCtorEq, if_false, put_self hs]
    rfl
  · rw [if_neg hfull] at hverdict ⊢
    simp only [hverdict, if_true]
    rfl

/-! ## One turn -/

/-- A subscriber with a living worker keeps its worker, its name and its bound. -/
theorem Turn.served (h : Turn i action note s s') (hlives : action ≠ .die i)
    (hs : s.Served name capacity) : s'.Served name capacity := by
  cases h with
  | apart _ _ => exact hs
  | offer _ =>
    unfold Subscriber.offer
    split
    · next haccepted =>
      have hroom := (Subscriber.verdict_eq_accepted_iff.1 haccepted).2
      rw [hs.places] at hroom
      exact ⟨hs.name_eq, hs.capacity_eq, hs.alive, hroom⟩
    · exact hs
  | take _ _ hqueue =>
    have hsize := Queue.size_of_dequeue? hqueue
    have hbounded := hs.bounded
    exact ⟨hs.name_eq, hs.capacity_eq, hs.alive, by dsimp only; omega⟩
  | done _ => exact ⟨hs.name_eq, hs.capacity_eq, hs.alive, hs.bounded⟩
  | die _ => exact absurd rfl hlives

/-- What is accepted comes to the end of the load, and what is handled was at the front. -/
theorem Turn.load (h : Turn i action note s s') (hlives : action ≠ .die i) :
    s.load ++ (note.bind (Note.accepted? i)).toList =
      (note.bind (Note.handled? i)).toList ++ s'.load := by
  cases h with
  | apart _ hapart =>
    cases note with
    | none => simp
    | some n => simp [hapart n rfl]
  | offer _ =>
    unfold Subscriber.offer
    cases hverdict : s.verdict <;> simp [Subscriber.load, Note.accepted?, Note.handled?]
  | take _ hhand hqueue =>
    simp [Subscriber.load, Note.accepted?, Note.handled?, hhand, Queue.toList_of_dequeue? hqueue]
  | done he => simp [Subscriber.load, Note.accepted?, Note.handled?, he]
  | die _ => exact absurd rfl hlives

/-- Where nothing is offered, each step of the worker is one step less for it. -/
theorem Turn.work (h : Turn i action note s s') (hlives : action ≠ .die i)
    (hquiet : action.passesOn = false) : (action.isWorkOf i).toNat + s'.work = s.work := by
  cases h with
  | apart hother _ => simp [hother]
  | offer hoffer => cases hoffer.symm.trans hquiet
  | take _ hhand hqueue =>
    have hsize := Queue.size_of_dequeue? hqueue
    simp only [Action.isWorkOf, decide_true, Bool.toNat_true, Subscriber.work, hhand,
      Option.toList_some, Option.toList_none, List.length_singleton, List.length_nil]
    omega
  | done he =>
    simp only [Action.isWorkOf, decide_true, Bool.toNat_true, Subscriber.work, he,
      Option.toList_some, Option.toList_none, List.length_singleton, List.length_nil]
    omega
  | die _ => exact absurd rfl hlives

/-- Where nothing is offered, nothing is accepted. -/
theorem Turn.accepted?_of_quiet (h : Turn i action note s s') (hquiet : action.passesOn = false) :
    note.bind (Note.accepted? i) = none := by
  cases h with
  | apart _ hapart =>
    cases note with
    | none => rfl
    | some n => exact Note.accepted?_of_apart (hapart n rfl)
  | offer hoffer => cases hoffer.symm.trans hquiet
  | take _ _ _ | done _ | die _ => rfl

/-- As long as there is work for a living worker, it can take a step. -/
theorem exists_step?_of_work (hs : d.subscribers[i]? = some s) (halive : s.alive = true)
    (hwork : s.work ≠ 0) : ∃ a, a.isWorkOf i = true ∧ d.step? a ≠ none := by
  cases he : s.inHand with
  | some e =>
    refine ⟨.finish i none, by simp [Action.isWorkOf], ?_⟩
    rw [(Step.finish hs he).step?_eq]
    exact Option.some_ne_none _
  | none =>
    cases hqueue : s.queue.dequeue? with
    | some next =>
      obtain ⟨e, queue⟩ := next
      refine ⟨.receive i, by simp [Action.isWorkOf], ?_⟩
      rw [(Step.receive hs halive he hqueue).step?_eq]
      exact Option.some_ne_none _
    | none =>
      refine absurd (Subscriber.work_eq_zero_iff.2 ?_) hwork
      simp [Subscriber.load, he, Queue.dequeue?_eq_none_iff.1 hqueue]

/-! ## A whole history -/

/-- The books of a subscriber balance at the end of a history. -/
theorem exists_served (hlives : .die i ∉ actions) (h : d.steps? actions = some t)
    (hs : d.subscribers[i]? = some s) (hserved : s.Served name capacity) :
    ∃ s', t.subscribers[i]? = some s' ∧ s'.Served name capacity ∧
      s.load ++ (d.record actions).filterMap (Note.accepted? i) =
        (d.record actions).filterMap (Note.handled? i) ++ s'.load := by
  refine record_induct (motive := fun u notes => ∃ s', u.subscribers[i]? = some s' ∧
    s'.Served name capacity ∧ s.load ++ notes.filterMap (Note.accepted? i) =
      notes.filterMap (Note.handled? i) ++ s'.load) ?_ h ⟨s, hs, hserved, by simp⟩
  rintro u v a notes ha hstep ⟨r, hr, hrserved, hbooks⟩
  have hnot : a ≠ .die i := fun hdie => hlives (hdie ▸ ha)
  obtain ⟨r', hr', hturn⟩ := hstep.turn hr
  refine ⟨r', hr', hturn.served hnot hrserved, ?_⟩
  rw [filterMap_append_toList, filterMap_append_toList, ← List.append_assoc, hbooks,
    List.append_assoc, hturn.load hnot, List.append_assoc]

/-- When nothing more is offered, nothing more is accepted, and the worker takes the steps that it
has left one by one. -/
theorem work_of_steps? (hlives : .die i ∉ actions) (hquiet : ∀ a ∈ actions, a.passesOn = false)
    (h : d.steps? actions = some t) (hs : d.subscribers[i]? = some s) :
    ∃ s', t.subscribers[i]? = some s' ∧ actions.countP (·.isWorkOf i) + s'.work = s.work ∧
      (d.record actions).filterMap (Note.accepted? i) = [] := by
  induction actions generalizing d s with
  | nil =>
    cases h
    exact ⟨s, hs, Nat.zero_add _, rfl⟩
  | cons a rest ih =>
    obtain ⟨u, hone, hrest⟩ := exists_of_steps?_cons h
    obtain ⟨r, hr, hturn⟩ := (Step.of_step? hone).turn hs
    have ha := hquiet a List.mem_cons_self
    have hnot : a ≠ .die i := fun hdie => hlives (hdie ▸ List.mem_cons_self)
    obtain ⟨s', hs', hcount, hnone⟩ := ih (fun hdie => hlives (List.mem_cons_of_mem a hdie))
      (fun b hb => hquiet b (List.mem_cons_of_mem a hb)) hrest hr
    refine ⟨s', hs', ?_, ?_⟩
    · have hnow := hturn.work hnot ha
      rw [countP_cons_toNat]
      omega
    · rw [record_cons hone, List.filterMap_append, hnone, List.append_nil]
      simpa using congrArg Option.toList (hturn.accepted?_of_quiet ha)

theorem getElem?_start {crew : List (String × Nat)} (hmember : crew[i]? = some (name, capacity))
    (busCapacity : Nat) :
    (start busCapacity crew).subscribers[i]? = some { name, capacity } := by
  simp [start, hmember]

/-- **Nothing that was accepted is lost, repeated or reordered.** For each subscriber whose worker
lives:

* what it has handled, over which it may have panicked, then what it has in hand and then what is
  queued are in order what it accepted, and the queue has never more than its places;
* an event that it is offered, from outside or by the listener, is refused exactly if its own queue
  is full; a refusal puts its report on the bus, unless it is a refused report, and nothing else
  changes;
* on the bus is what was sent, and one report for each such refusal and for each panic;
* when nothing more is offered, the worker comes to the end of its work, and when it can do nothing
  more it has handled all that was accepted. -/
theorem served_in_order (h : (start busCapacity crew).steps? actions = some d)
    (hmember : crew[i]? = some (name, capacity)) (hlives : .die i ∉ actions) :
    ∃ s, d.subscribers[i]? = some s ∧ s.Served name capacity ∧
      ((start busCapacity crew).record actions).filterMap (Note.accepted? i) =
        ((start busCapacity crew).record actions).filterMap (Note.handled? i) ++
          s.inHand.toList ++ s.queue.toList ∧
      (∀ e, d.offered? i e =
          some (.offered i e (if s.queue.size = max 1 capacity then .full else .accepted)) ∧
        d.step? (.offer i e) = some (d.answerTo i s e) ∧
        (d.handing = some (e, i) →
          d.step? .hand = some ((d.answerTo i s e).turnTo (some (e, i + 1))))) ∧
      d.bus.published = ((start busCapacity crew).record actions).filterMap
        (Note.onBus? (crew.map (·.1))) ∧
      ∀ rest t, (∀ a ∈ rest, a.passesOn = false) → .die i ∉ rest → d.steps? rest = some t →
        rest.countP (·.isWorkOf i) ≤ 2 * s.queue.size + s.inHand.toList.length ∧
        ((∀ a, a.isWorkOf i = true → t.step? a = none) →
          ((start busCapacity crew).record (actions ++ rest)).filterMap (Note.handled? i) =
            ((start busCapacity crew).record actions).filterMap (Note.accepted? i)) := by
  obtain ⟨s, hs, hserved, hbooks⟩ := exists_served hlives h (getElem?_start hmember busCapacity)
    ⟨rfl, rfl, rfl, Nat.zero_le _⟩
  have hbooks : ((start busCapacity crew).record actions).filterMap (Note.accepted? i) =
      ((start busCapacity crew).record actions).filterMap (Note.handled? i) ++ s.load := hbooks
  refine ⟨s, hs, hserved, ?_, fun e => ⟨?_, ?_, ?_⟩, published_eq_filterMap_record h, ?_⟩
  · rw [hbooks, Subscriber.load, List.append_assoc]
  · rw [offered?, hs, Option.map_some, hserved.verdict]
  · rw [(Step.offer hs).step?_eq, passOn_eq_answerTo hs hserved]
  · intro hhanding
    rw [(Step.hand hhanding hs).step?_eq, passOn_eq_answerTo hs hserved]
  · intro rest t hquiet hrestLives hrest
    obtain ⟨s', hs', hcount, hnone⟩ := work_of_steps? hrestLives hquiet hrest hs
    refine ⟨by simp only [Subscriber.work] at hcount; omega, fun hdone => ?_⟩
    obtain ⟨s'', hs'', hserved', hbooks'⟩ := exists_served hrestLives hrest hs hserved
    cases hs''.symm.trans hs'
    have hload : s'.load = [] := by
      refine Subscriber.work_eq_zero_iff.1 (by_contra fun hwork => ?_)
      obtain ⟨a, ha, hstep⟩ := exists_step?_of_work hs' hserved'.alive hwork
      exact hstep (hdone a ha)
    rw [hnone, hload, List.append_nil, List.append_nil] at hbooks'
    rw [record_append h, List.filterMap_append, ← hbooks', ← hbooks]

/-- Two subscribers are offered two events; the first has only one place, and panics. -/
def crowded : List Action :=
  [.offer 0 { kind := .engineStarted }, .offer 1 { kind := .engineStarted },
    .offer 0 { kind := .sourceChanged }, .offer 1 { kind := .sourceChanged }, .receive 0,
    .finish 0 (some (.message "no room"))]

theorem served_in_order_crowded :
    ∃ d s, (start 8 [("a", 0), ("b", 2)]).steps? crowded = some d ∧ .die 0 ∉ crowded ∧
      d.subscribers[0]? = some s ∧ s.Served "a" 0 ∧
      ((start 8 [("a", 0), ("b", 2)]).record crowded).filterMap (Note.handled? 0) =
        [{ kind := .engineStarted }] ∧
      d.bus.published = [.overflow "a" "full", .subscriberPanic "a" "no room"] := by
  obtain ⟨d, h⟩ : ∃ d, (start 8 [("a", 0), ("b", 2)]).steps? crowded = some d := ⟨_, rfl⟩
  have hlives : .die 0 ∉ crowded := by simp [crowded]
  obtain ⟨s, hs, hserved, -, -, hpublished, -⟩ := served_in_order h rfl hlives
  exact ⟨d, s, h, hlives, hs, hserved, rfl, hpublished⟩

end Delivery

end CompileWatch
