import CompileWatch.Subscriber.Crew

/-!
# What can happen in a delivery

`Delivery.Step` lists all that one action can do on the way from the bus to the subscribers, one
constructor for each case, and `Step.of_step?` says that the list is complete.
-/
namespace CompileWatch

/-- Is the event a report about a subscriber, made on the way from the bus to the subscribers? -/
def Event.isReport (e : Event) : Bool :=
  e.kind = .subscriberPanicked || e.kind = .subscriberOverflow

namespace Subscriber

/-- All that an offer can lead to: the event is queued, or it is refused, and then reported unless
it is the report of a refusal itself. -/
theorem offer_cases (s : Subscriber) (e : Event) :
    (s.offer e = { s with queue := s.queue.enqueue e } ∧ s.refusalReport e = none) ∨
      (s.offer e = s ∧ e.kind = .subscriberOverflow ∧ s.refusalReport e = none) ∨
      (s.offer e = s ∧ e.kind ≠ .subscriberOverflow ∧
        ∃ why, s.refusalReport e = some (.overflow s.name why)) := by
  unfold offer refusalReport
  cases s.verdict with
  | accepted => exact .inl ⟨rfl, rfl⟩
  | full | closed =>
    by_cases hkind : e.kind = .subscriberOverflow
    · exact .inr (.inl ⟨rfl, hkind, if_pos hkind⟩)
    · exact .inr (.inr ⟨rfl, hkind, _, if_neg hkind⟩)

end Subscriber

namespace Delivery

variable {d t : Delivery} {action : Action}

/-- Nothing has been published, and all subscribers, each with the places of its queue, are idle. -/
def start (busCapacity : Nat) (crew : List (String × Nat)) : Delivery where
  bus := .ofCapacity busCapacity
  subscribers := crew.map fun (name, capacity) => { name, capacity }

/-- Every crew starts like that. -/
theorem delivery_ofHabits (busCapacity : Nat) (crew : List (String × Nat × Habit)) :
    (Crew.ofHabits busCapacity crew).delivery =
      start busCapacity (crew.map fun (name, capacity, _) => (name, capacity)) := by
  simp only [Crew.ofHabits, start, List.map_map]
  rfl

/-- The `i`-th subscriber is now `s`. -/
def put (d : Delivery) (i : Nat) (s : Subscriber) : Delivery :=
  { d with subscribers := d.subscribers.set i s }

/-- The listener is now handing out this. -/
def turnTo (d : Delivery) (handing : Option (Event × Nat)) : Delivery := { d with handing }

/-- The `i`-th subscriber `s` is offered an event, and a refusal is reported. -/
def passOn (d : Delivery) (i : Nat) (s : Subscriber) (e : Event) : Delivery :=
  (d.put i (s.offer e)).report (s.refusalReport e)

/-- All that one action can do. -/
inductive Step (d : Delivery) : Action → Delivery → Prop
  | publish {e : Event} : Step d (.publish e) (d.publish e)
  | offer {i : Nat} {e : Event} {s : Subscriber} : d.subscribers[i]? = some s →
      Step d (.offer i e) (d.passOn i s e)
  | listen {e : Event} : d.listening = true → d.handing = none → d.bus.oldest ≤ d.position →
      d.bus.published[d.position]? = some e →
      Step d .listen { d with position := d.position + 1, handing := some (e, 0) }
  | fallBehind : d.listening = true → d.handing = none → d.position < d.bus.oldest →
      Step d .listen { d with position := d.bus.oldest }
  | hand {e : Event} {i : Nat} {s : Subscriber} : d.handing = some (e, i) →
      d.subscribers[i]? = some s →
      Step d .hand ((d.passOn i s e).turnTo (some (e, i + 1)))
  | handedOut {e : Event} {i : Nat} : d.handing = some (e, i) → d.subscribers.length ≤ i →
      Step d .hand (d.turnTo none)
  | receive {i : Nat} {s : Subscriber} {e : Event} {queue : Queue Event} :
      d.subscribers[i]? = some s → s.alive = true → s.inHand = none →
      s.queue.dequeue? = some (e, queue) →
      Step d (.receive i) (d.put i { s with queue, inHand := some e })
  | finish {i : Nat} {s : Subscriber} {e : Event} : d.subscribers[i]? = some s →
      s.inHand = some e →
      Step d (.finish i none) (d.put i { s with inHand := none })
  | panic {i : Nat} {s : Subscriber} {e : Event} {payload : PanicPayload} :
      d.subscribers[i]? = some s → s.inHand = some e →
      Step d (.finish i (some payload))
        ((d.put i { s with inHand := none }).publish (.subscriberPanic s.name payload.text))
  | die {i : Nat} {s : Subscriber} {e : Event} : d.subscribers[i]? = some s →
      s.inHand = some e →
      Step d (.die i) (d.put i { s with inHand := none, queue := {}, alive := false })
  | stopListening : Step d .stopListening { d with listening := false, handing := none }

theorem Step.of_offer? {i : Nat} {e : Event} (h : d.offer? i e = some t) :
    ∃ s, d.subscribers[i]? = some s ∧ t = d.passOn i s e := by
  unfold offer? at h
  split at h
  · cases h
  · next s hs => cases h; exact ⟨s, hs, rfl⟩

theorem Step.of_listen (h : d.step? .listen = some t) : Step d .listen t := by
  simp only [step?, Option.ite_none_right_eq_some, Bool.and_eq_true, Option.isNone_iff_eq_none] at h
  obtain ⟨⟨hlistening, hhanding⟩, h⟩ := h
  by_cases hbehind : d.position < d.bus.oldest
  · rw [Bus.receive_of_lt_oldest hbehind] at h
    cases h
    exact .fallBehind hlistening hhanding hbehind
  · have hold := Nat.not_lt.1 hbehind
    cases he : d.bus.published[d.position]? with
    | some e =>
      rw [Bus.receive_of_getElem? hold he] at h
      cases h
      exact .listen hlistening hhanding hold he
    | none =>
      have hle : d.bus.position ≤ d.position := by
        rw [← Bus.length_published]
        exact List.getElem?_eq_none_iff.1 he
      rw [Bus.receive_of_position_le hle] at h
      by_cases hclosed : d.bus.closed = true <;> simp [hclosed] at h

theorem Step.of_hand (h : d.step? .hand = some t) : Step d .hand t := by
  dsimp only [step?] at h
  split at h
  · cases h
  · next e i hhanding =>
    split at h
    · obtain ⟨u, hu, rfl⟩ := Option.map_eq_some_iff.1 h
      obtain ⟨s, hs, rfl⟩ := Step.of_offer? hu
      exact .hand hhanding hs
    · next hle => cases h; exact .handedOut hhanding (Nat.not_lt.1 hle)

theorem Step.of_receive {i : Nat} (h : d.step? (.receive i) = some t) : Step d (.receive i) t := by
  dsimp only [step?] at h
  split at h
  · cases h
  · next s hs =>
    obtain ⟨s', hs', rfl⟩ := Option.map_eq_some_iff.1 h
    unfold Subscriber.receive? at hs'
    split at hs'
    · next e queue hhand hqueue =>
      split at hs'
      · next halive => cases hs'; exact .receive hs halive hhand hqueue
      · cases hs'
    · cases hs'

theorem Step.of_finish {i : Nat} {panic : Option PanicPayload}
    (h : d.step? (.finish i panic) = some t) : Step d (.finish i panic) t := by
  dsimp only [step?] at h
  split at h
  · cases h
  · next s hs =>
    obtain ⟨⟨e, idle⟩, hfinish, rfl⟩ := Option.map_eq_some_iff.1 h
    obtain ⟨e', he, heq⟩ := Option.map_eq_some_iff.1 hfinish
    cases heq
    cases panic with
    | none => exact .finish hs he
    | some payload => exact .panic hs he

theorem Step.of_die {i : Nat} (h : d.step? (.die i) = some t) : Step d (.die i) t := by
  dsimp only [step?] at h
  split at h
  · cases h
  · next s hs =>
    obtain ⟨s', hdie, rfl⟩ := Option.map_eq_some_iff.1 h
    obtain ⟨e, he, rfl⟩ := Option.map_eq_some_iff.1 hdie
    exact .die hs he

/-- The list of steps is complete. -/
theorem Step.of_step? (h : d.step? action = some t) : Step d action t := by
  cases action with
  | publish e => cases h; exact .publish
  | offer i e =>
    obtain ⟨s, hs, rfl⟩ := Step.of_offer? h
    exact .offer hs
  | listen => exact .of_listen h
  | hand => exact .of_hand h
  | receive i => exact .of_receive h
  | finish i panic => exact .of_finish h
  | die i => exact .of_die h
  | stopListening => cases h; exact .stopListening

theorem offer?_of_getElem? {i : Nat} {s : Subscriber} (hs : d.subscribers[i]? = some s)
    (e : Event) : d.offer? i e = some (d.passOn i s e) := by
  simp only [offer?, hs]
  rfl

/-- What is listed can happen. -/
theorem Step.step?_eq (h : Step d action t) : d.step? action = some t := by
  cases h with
  | publish => rfl
  | offer hs => exact offer?_of_getElem? hs _
  | listen hlistening hhanding hold he =>
    simp only [step?, hlistening, hhanding, Option.isNone_none, Bool.and_self, if_true,
      Bus.receive_of_getElem? hold he]
  | fallBehind hlistening hhanding hbehind =>
    simp only [step?, hlistening, hhanding, Option.isNone_none, Bool.and_self, if_true,
      Bus.receive_of_lt_oldest hbehind]
  | hand hhanding hs =>
    have hlt := (List.getElem?_eq_some_iff.1 hs).1
    simp only [step?, hhanding, hlt, if_true, offer?_of_getElem? hs, Option.map_some]
    rfl
  | handedOut hhanding hle =>
    simp only [step?, hhanding, if_neg (Nat.not_lt.2 hle)]
    rfl
  | receive hs halive hhand hqueue =>
    simp only [step?, hs, Subscriber.receive?, hhand, hqueue, halive, if_true, Option.map_some]
    rfl
  | finish hs he =>
    simp only [step?, hs, Subscriber.finish?, he, Option.map_some]
    rfl
  | panic hs he =>
    simp only [step?, hs, Subscriber.finish?, he, Option.map_some]
    rfl
  | die hs he =>
    simp only [step?, hs, Subscriber.die?, he, Option.map_some]
    rfl
  | stopListening => rfl

/-- A history that can happen begins with an action that can happen. -/
theorem exists_of_steps?_cons {rest : List Action} (h : d.steps? (action :: rest) = some t) :
    ∃ u, d.step? action = some u ∧ u.steps? rest = some t := by
  rw [steps?_cons] at h
  exact Option.bind_eq_some_iff.1 h

/-- How many actions of a history are of a sort, each seen in the state in which it happens. -/
def count (look : Delivery → Action → Bool) : Delivery → List Action → Nat
  | _, [] => 0
  | d, a :: rest =>
    match d.step? a with
    | none => 0
    | some next => (look d a).toNat + next.count look rest

theorem count_cons {look : Delivery → Action → Bool} {rest : List Action}
    (h : d.step? action = some t) :
    d.count look (action :: rest) = (look d action).toNat + t.count look rest := by
  simp [count, h]

/-- Nothing changes how many subscribers there are. -/
theorem Step.length_subscribers (h : Step d action t) :
    t.subscribers.length = d.subscribers.length := by
  have passed (i : Nat) (s : Subscriber) (e : Event) :
      (d.passOn i s e).subscribers.length = d.subscribers.length := by
    unfold passOn
    cases s.refusalReport e <;> simp [report, Delivery.publish, put]
  cases h with
  | offer _ => exact passed _ _ _
  | hand _ _ => exact passed _ _ _
  | publish | listen _ _ _ _ | fallBehind _ _ _ | handedOut _ _ | stopListening => rfl
  | receive _ _ _ _ | finish _ _ | panic _ _ | die _ _ => simp [Delivery.publish, put]

end Delivery

end CompileWatch
