import CompileWatch.Proofs.Deliveries

/-!
# The record of a delivery

Of every action one thing or nothing is written down: what was sent, what the listener got, how an
offer was answered, what a worker took and what it was done with. The record of a history tells
what was on the bus, event by event, and what became of each subscriber: `Turn` lists all that one
action can do to one of them, with the note that is written of it.
-/
namespace CompileWatch

/-- What is written down of an action. -/
inductive Note where
  /-- An event was published from outside. -/
  | sent (e : Event)
  /-- The listener got an event from the bus. -/
  | received (e : Event)
  /-- The listener was told that it has lost events. -/
  | lost (n : Nat)
  /-- The `i`-th subscriber was offered an event, and this was the answer. -/
  | offered (i : Nat) (e : Event) (answer : Subscriber.Offer)
  /-- The `i`-th worker took an event out of its queue. -/
  | taken (i : Nat) (e : Event)
  /-- The `i`-th worker was done with an event; did handling it panic? -/
  | handled (i : Nat) (e : Event) (panic : Option PanicPayload)
  deriving DecidableEq, Repr

namespace Note

variable {i : Nat} {note : Note}

/-- Is it about the `i`-th subscriber? -/
def isAbout (i : Nat) : Note → Bool
  | offered j _ _ | taken j _ | handled j _ _ => j = i
  | sent _ | received _ | lost _ => false

/-- The event that the `i`-th subscriber was offered, with its answer. -/
def answer? (i : Nat) : Note → Option (Event × Subscriber.Offer)
  | offered j e answer => if j = i then some (e, answer) else none
  | _ => none

/-- The event that the `i`-th subscriber accepted. -/
def accepted? (i : Nat) : Note → Option Event
  | offered j e .accepted => if j = i then some e else none
  | _ => none

/-- The event that the `i`-th worker took out of its queue. -/
def taken? (i : Nat) : Note → Option Event
  | taken j e => if j = i then some e else none
  | _ => none

/-- The event that the `i`-th worker was done with. -/
def handled? (i : Nat) : Note → Option Event
  | handled j e _ => if j = i then some e else none
  | _ => none

/-- The event that came on the bus, where the subscribers have these names: what was sent, the
report of a refusal, unless a report of a refusal was refused itself, and the report of a panic. -/
def onBus? (names : List String) : Note → Option Event
  | sent e => some e
  | offered i e answer =>
    if answer = .accepted ∨ e.kind = .subscriberOverflow then none
    else names[i]?.map (Event.overflow · answer.name)
  | handled i _ (some payload) => names[i]?.map (Event.subscriberPanic · payload.text)
  | _ => none

theorem accepted?_eq (i : Nat) (note : Note) : note.accepted? i =
    (note.answer? i).bind fun x => if x.2 = .accepted then some x.1 else none := by
  cases note with
  | offered j e answer => by_cases hij : j = i <;> cases answer <;> simp [accepted?, answer?, hij]
  | _ => rfl

@[simp] theorem accepted?_of_apart (h : note.isAbout i = false) : note.accepted? i = none := by
  cases note with
  | offered j e answer =>
    have hij : ¬ j = i := of_decide_eq_false h
    cases answer <;> simp [accepted?, hij]
  | _ => rfl

@[simp] theorem taken?_of_apart (h : note.isAbout i = false) : note.taken? i = none := by
  cases note with
  | taken j e => exact if_neg (of_decide_eq_false h)
  | _ => rfl

@[simp] theorem handled?_of_apart (h : note.isAbout i = false) : note.handled? i = none := by
  cases note with
  | handled j e panic => exact if_neg (of_decide_eq_false h)
  | _ => rfl

end Note

/-- The items of a list that goes on by one note, if there is one. -/
theorem filterMap_append_toList {β γ : Type} (f : β → Option γ) (l : List β) (b : Option β) :
    (l ++ b.toList).filterMap f = l.filterMap f ++ (b.bind f).toList := by
  rw [List.filterMap_append]
  cases b with
  | none => rfl
  | some b => cases h : f b <;> simp [h]

namespace Delivery

variable {d t : Delivery} {action : Action} {actions : List Action} {i : Nat} {s : Subscriber}

/-- The `i`-th subscriber is offered an event. -/
def offered? (d : Delivery) (i : Nat) (e : Event) : Option Note :=
  d.subscribers[i]?.map fun s => .offered i e s.verdict

/-- What is written down of an action that happens now. -/
def note? (d : Delivery) : Action → Option Note
  | .publish e => some (.sent e)
  | .offer i e => d.offered? i e
  | .listen =>
    match (d.bus.receive d.position).1 with
    | .item e => some (.received e)
    | .lagged n => some (.lost n)
    | .empty | .closed => none
  | .hand => d.handing.bind fun (e, i) => d.offered? i e
  | .receive i =>
    d.subscribers[i]?.bind fun s => s.queue.dequeue?.map fun (e, _) => .taken i e
  | .finish i panic => d.subscribers[i]?.bind fun s => s.inHand.map fun e => .handled i e panic
  | .die _ | .stopListening => none

/-- The record of a history, in order. -/
def record : Delivery → List Action → List Note
  | _, [] => []
  | d, a :: rest =>
    match d.step? a with
    | none => []
    | some next => (d.note? a).toList ++ next.record rest

theorem record_cons {rest : List Action} (h : d.step? action = some t) :
    d.record (action :: rest) = (d.note? action).toList ++ t.record rest := by
  simp [record, h]

/-- The record of a history in two parts. -/
theorem record_append {first second : List Action} (h : d.steps? first = some t) :
    d.record (first ++ second) = d.record first ++ t.record second := by
  induction first generalizing d with
  | nil => cases h; rfl
  | cons a rest ih =>
    obtain ⟨u, hone, hrest⟩ := exists_of_steps?_cons h
    rw [List.cons_append, record_cons hone, record_cons hone, ih hrest, List.append_assoc]

/-- What holds at the beginning without notes, and is kept by every action with the note written of
it, holds at the end with the whole record. -/
theorem record_induct {motive : Delivery → List Note → Prop}
    (step : ∀ {u v : Delivery} {a : Action} {notes : List Note}, a ∈ actions → Step u a v →
      motive u notes → motive v (notes ++ (u.note? a).toList))
    (h : d.steps? actions = some t) (hd : motive d []) : motive t (d.record actions) := by
  -- the induction is on the rest of the history, with the notes written so far
  have run : ∀ (rest : List Action) (u : Delivery) (notes : List Note), (∀ a ∈ rest, a ∈ actions) →
      u.steps? rest = some t → motive u notes → motive t (notes ++ u.record rest) := by
    intro rest
    induction rest with
    | nil =>
      intro u notes _ hrest hu
      cases hrest
      simpa [record] using hu
    | cons a rest ih =>
      intro u notes hsub hrest hu
      obtain ⟨v, hone, hlast⟩ := exists_of_steps?_cons hrest
      have hv := step (hsub a List.mem_cons_self) (Step.of_step? hone) hu
      rw [record_cons hone, ← List.append_assoc]
      exact ih v _ (fun b hb => hsub b (List.mem_cons_of_mem a hb)) hlast hv
  exact run actions d [] (fun _ ha => ha) h hd

/-! ## The notes -/

@[simp] theorem note?_publish (d : Delivery) (e : Event) : d.note? (.publish e) = some (.sent e) :=
  rfl

theorem note?_offer (hs : d.subscribers[i]? = some s) (e : Event) :
    d.note? (.offer i e) = some (.offered i e s.verdict) := by
  simp only [note?, offered?, hs, Option.map_some]

theorem note?_listen {e : Event} (hold : d.bus.oldest ≤ d.position)
    (he : d.bus.published[d.position]? = some e) : d.note? .listen = some (.received e) := by
  simp only [note?, Bus.receive_of_getElem? hold he]

theorem note?_fallBehind (h : d.position < d.bus.oldest) :
    d.note? .listen = some (.lost (d.bus.oldest - d.position)) := by
  simp only [note?, Bus.receive_of_lt_oldest h]

theorem note?_hand {e : Event} (hhanding : d.handing = some (e, i))
    (hs : d.subscribers[i]? = some s) : d.note? .hand = some (.offered i e s.verdict) := by
  simp only [note?, hhanding, Option.bind_some, offered?, hs, Option.map_some]

theorem note?_handedOut {e : Event} (hhanding : d.handing = some (e, i))
    (hle : d.subscribers.length ≤ i) : d.note? .hand = none := by
  simp only [note?, hhanding, Option.bind_some, offered?, List.getElem?_eq_none hle,
    Option.map_none]

theorem note?_receive {e : Event} {queue : Queue Event} (hs : d.subscribers[i]? = some s)
    (hqueue : s.queue.dequeue? = some (e, queue)) :
    d.note? (.receive i) = some (.taken i e) := by
  simp only [note?, hs, Option.bind_some, hqueue, Option.map_some]

theorem note?_finish {e : Event} (hs : d.subscribers[i]? = some s) (he : s.inHand = some e)
    (panic : Option PanicPayload) : d.note? (.finish i panic) = some (.handled i e panic) := by
  simp only [note?, hs, Option.bind_some, he, Option.map_some]

/-! ## What was on the bus -/

@[simp] theorem subscribers_report (d : Delivery) (e : Option Event) :
    (d.report e).subscribers = d.subscribers := by
  cases e <;> rfl

@[simp] theorem published_report (d : Delivery) (e : Option Event) :
    (d.report e).bus.published = d.bus.published ++ e.toList := by
  cases e with
  | none => exact (List.append_nil _).symm
  | some e => exact Bus.published_publish ..

@[simp] theorem subscribers_passOn (d : Delivery) (i : Nat) (s : Subscriber) (e : Event) :
    (d.passOn i s e).subscribers = d.subscribers.set i (s.offer e) :=
  subscribers_report ..

@[simp] theorem position_passOn (d : Delivery) (i : Nat) (s : Subscriber) (e : Event) :
    (d.passOn i s e).position = d.position := by
  unfold passOn
  cases s.refusalReport e <;> rfl

@[simp] theorem name_offer (s : Subscriber) (e : Event) : (s.offer e).name = s.name := by
  unfold Subscriber.offer
  split <;> rfl

/-- Nobody is renamed. -/
theorem Step.names (h : Step d action t) :
    t.subscribers.map (·.name) = d.subscribers.map (·.name) := by
  -- where one subscriber is replaced by one of the same name, all names stay
  have put {i : Nat} {s s' : Subscriber} (hs : d.subscribers[i]? = some s)
      (hname : s'.name = s.name) :
      (d.subscribers.set i s').map (·.name) = d.subscribers.map (·.name) := by
    refine List.ext_getElem? fun j => ?_
    by_cases hij : i = j
    · subst hij
      rw [List.getElem?_map, List.getElem?_set_self (List.getElem?_eq_some_iff.1 hs).1,
        List.getElem?_map, hs, Option.map_some, Option.map_some, hname]
    · rw [List.getElem?_map, List.getElem?_set_ne hij, List.getElem?_map]
  cases h with
  | publish | listen _ _ _ _ | fallBehind _ _ _ | handedOut _ _ | stopListening => rfl
  | offer hs | hand _ hs =>
    simp only [turnTo, subscribers_passOn]
    exact put hs (name_offer ..)
  | receive hs _ _ _ | finish hs _ | panic hs _ | die hs _ => exact put hs rfl

/-- The report of a refusal is what the note of the offer says. -/
theorem refusalReport_eq (hs : d.subscribers[i]? = some s) (e : Event) :
    s.refusalReport e =
      (Note.offered i e s.verdict).onBus? (d.subscribers.map (·.name)) := by
  unfold Subscriber.refusalReport Note.onBus?
  cases s.verdict <;> simp [List.getElem?_map, hs]

/-- The note of an action says what comes on the bus with it. -/
theorem Step.published (h : Step d action t) :
    t.bus.published = d.bus.published ++
      ((d.note? action).bind (Note.onBus? (d.subscribers.map (·.name)))).toList := by
  cases h with
  | publish => exact Bus.published_publish ..
  | offer hs =>
    rw [note?_offer hs, passOn, published_report, refusalReport_eq hs]
    rfl
  | hand hhanding hs =>
    rw [note?_hand hhanding hs, turnTo, passOn, published_report, refusalReport_eq hs]
    rfl
  | listen _ _ hold he =>
    rw [note?_listen hold he]
    exact (List.append_nil _).symm
  | fallBehind _ _ hbehind =>
    rw [note?_fallBehind hbehind]
    exact (List.append_nil _).symm
  | handedOut hhanding hle =>
    rw [note?_handedOut hhanding hle]
    exact (List.append_nil _).symm
  | receive hs _ _ hqueue =>
    rw [note?_receive hs hqueue]
    exact (List.append_nil _).symm
  | finish hs he =>
    rw [note?_finish hs he]
    exact (List.append_nil _).symm
  | panic hs he =>
    rw [note?_finish hs he]
    simp [Delivery.publish, put, Note.onBus?, List.getElem?_map, hs]
  | die _ _ | stopListening => exact (List.append_nil _).symm

@[simp] theorem names_start (busCapacity : Nat) (crew : List (String × Nat)) :
    (start busCapacity crew).subscribers.map (·.name) = crew.map (·.1) := by
  simp only [start, List.map_map]
  rfl

/-- The record says what was on the bus, event by event. -/
theorem published_eq_filterMap_record {busCapacity : Nat} {crew : List (String × Nat)}
    (h : (start busCapacity crew).steps? actions = some d) :
    d.bus.published =
      ((start busCapacity crew).record actions).filterMap (Note.onBus? (crew.map (·.1))) := by
  refine (record_induct (motive := fun u notes => u.subscribers.map (·.name) = crew.map (·.1) ∧
    u.bus.published = notes.filterMap (Note.onBus? (crew.map (·.1)))) ?_ h ?_).2
  · intro u v a notes _ hstep hu
    refine ⟨hstep.names.trans hu.1, ?_⟩
    rw [hstep.published, hu.1, hu.2, filterMap_append_toList]
  · exact ⟨names_start busCapacity crew, rfl⟩

/-! ## One subscriber -/

/-- Is an event offered to a subscriber? -/
def Action.passesOn : Action → Bool
  | .offer _ _ | .hand => true
  | _ => false

/-- Is it a step of the `i`-th worker? -/
def Action.isWorkOf (i : Nat) : Action → Bool
  | .receive j | .finish j _ => j = i
  | _ => false

/-- All that an action can do to the `i`-th subscriber, with the note that is written of it. -/
inductive Turn (i : Nat) : Action → Option Note → Subscriber → Subscriber → Prop
  | apart {action : Action} {note : Option Note} {s : Subscriber} : action.isWorkOf i = false →
      (∀ n ∈ note, n.isAbout i = false) → Turn i action note s s
  | offer {action : Action} {s : Subscriber} {e : Event} : action.passesOn = true →
      Turn i action (some (.offered i e s.verdict)) s (s.offer e)
  | take {s : Subscriber} {e : Event} {queue : Queue Event} : s.alive = true → s.inHand = none →
      s.queue.dequeue? = some (e, queue) →
      Turn i (.receive i) (some (.taken i e)) s { s with queue, inHand := some e }
  | done {s : Subscriber} {e : Event} {panic : Option PanicPayload} : s.inHand = some e →
      Turn i (.finish i panic) (some (.handled i e panic)) s { s with inHand := none }
  | die {s : Subscriber} {e : Event} : s.inHand = some e →
      Turn i (.die i) none s { s with inHand := none, queue := {}, alive := false }

/-- Where the `j`-th subscriber is replaced, the `i`-th one has a turn if it is that one. -/
theorem exists_turn_of_set {j : Nat} {r r' : Subscriber} {note : Option Note}
    (hr : d.subscribers[j]? = some r) (hs : d.subscribers[i]? = some s)
    (ht : t.subscribers = d.subscribers.set j r') (hturn : Turn j action note r r')
    (hapart : j ≠ i → action.isWorkOf i = false ∧ ∀ n ∈ note, n.isAbout i = false) :
    ∃ s', t.subscribers[i]? = some s' ∧ Turn i action note s s' := by
  rw [ht]
  by_cases hij : j = i
  · subst hij
    cases hr.symm.trans hs
    exact ⟨r', List.getElem?_set_self (List.getElem?_eq_some_iff.1 hr).1, hturn⟩
  · obtain ⟨hwork, habout⟩ := hapart hij
    exact ⟨s, by rw [List.getElem?_set_ne hij, hs], .apart hwork habout⟩

/-- Each action gives every subscriber such a turn. -/
theorem Step.turn (h : Step d action t) (hs : d.subscribers[i]? = some s) :
    ∃ s', t.subscribers[i]? = some s' ∧ Turn i action (d.note? action) s s' := by
  have apart {u : Delivery} {a : Action} {note : Option Note} (hu : u.subscribers[i]? = some s)
      (hwork : a.isWorkOf i = false) (habout : ∀ n ∈ note, n.isAbout i = false) :
      ∃ s', u.subscribers[i]? = some s' ∧ Turn i a note s s' := ⟨s, hu, .apart hwork habout⟩
  cases h with
  | publish => exact apart hs rfl (by simp [Note.isAbout])
  | stopListening => exact apart hs rfl (by simp [note?])
  | listen _ _ hold he => exact apart hs rfl (by simp [note?_listen hold he, Note.isAbout])
  | fallBehind _ _ hbehind => exact apart hs rfl (by simp [note?_fallBehind hbehind, Note.isAbout])
  | handedOut hhanding hle => exact apart hs rfl (by simp [note?_handedOut hhanding hle])
  | @offer j e r hr =>
    rw [note?_offer hr]
    exact exists_turn_of_set hr hs (subscribers_passOn ..) (.offer rfl)
      fun hij => ⟨rfl, by simp [Note.isAbout, hij]⟩
  | @hand e j r hhanding hr =>
    rw [note?_hand hhanding hr]
    exact exists_turn_of_set hr hs (subscribers_passOn ..) (.offer rfl)
      fun hij => ⟨rfl, by simp [Note.isAbout, hij]⟩
  | @receive j r e queue hr halive hhand hqueue =>
    rw [note?_receive hr hqueue]
    exact exists_turn_of_set hr hs rfl (.take halive hhand hqueue)
      fun hij => by simp [Action.isWorkOf, Note.isAbout, hij]
  | @finish j r e hr he =>
    rw [note?_finish hr he]
    exact exists_turn_of_set hr hs rfl (.done he)
      fun hij => by simp [Action.isWorkOf, Note.isAbout, hij]
  | @panic j r e payload hr he =>
    rw [note?_finish hr he]
    exact exists_turn_of_set hr hs rfl (.done he)
      fun hij => by simp [Action.isWorkOf, Note.isAbout, hij]
  | @die j r e hr he => exact exists_turn_of_set hr hs rfl (.die he) fun _ => ⟨rfl, by simp [note?]⟩

end Delivery

end CompileWatch
