import CompileWatch.Proofs.Deliveries
import Mathlib.Tactic.Ring

/-!
# How far a report can spread

A report about a subscriber goes round like any other event, so that it may lead to more reports.
What an event on its way can still lead to is worth a toll: the actions it needs and the reports it
can cause, at prices that are chosen freely. A refused report of a refusal leads to nothing, and a
report of a panic only to refusals, so that the toll of every event is finite as long as no
subscriber panics over a report; each time one does, the toll of one more report falls due. Every
action pays its price out of the toll that was laid up, which bounds the reports of a whole history
and the actions it can go on for.

Nothing else bounds them: one subscriber that panics over the reports of its own panics keeps the
bus busy for ever.
-/
namespace CompileWatch

/-! ## Totals -/

section Totals

variable {β : Type} {b : β} {l : List β} {i j : Nat}

/-- What the items of a list cost together. -/
def total (price : β → Nat) : List β → Nat
  | [] => 0
  | b :: rest => price b + total price rest

theorem total_append (price : β → Nat) (l m : List β) :
    total price (l ++ m) = total price l + total price m := by
  induction l with
  | nil => simp [total]
  | cons b rest ih => simp only [List.cons_append, total, ih, Nat.add_assoc]

/-- An item is replaced by another. -/
theorem total_set (price : β → Nat) (h : l[i]? = some b) (c : β) :
    total price (l.set i c) + price b = total price l + price c := by
  induction l generalizing i with
  | nil => cases h
  | cons d rest ih =>
    cases i with
    | zero =>
      cases h
      simp only [List.set_cons_zero, total]
      omega
    | succ i =>
      have := ih (i := i) (by simpa using h)
      simp only [List.set_cons_succ, total]
      omega

theorem total_drop (price : β → Nat) (h : l[i]? = some b) :
    total price (l.drop i) = price b + total price (l.drop (i + 1)) := by
  obtain ⟨hlt, rfl⟩ := List.getElem?_eq_some_iff.1 h
  rw [List.drop_eq_getElem_cons hlt, total]

theorem total_drop_le (price : β → Nat) (l : List β) (hij : i ≤ j) :
    total price (l.drop j) ≤ total price (l.drop i) := by
  have hsplit := total_append price ((l.drop i).take (j - i)) ((l.drop i).drop (j - i))
  rw [List.take_append_drop, List.drop_drop, Nat.add_sub_cancel' hij] at hsplit
  omega

/-- An item that is put at the end costs at most its price. -/
theorem total_drop_append_singleton_le (price : β → Nat) (l : List β) (b : β) (i : Nat) :
    total price ((l ++ [b]).drop i) ≤ total price (l.drop i) + price b := by
  rw [List.drop_append, total_append]
  have := total_drop_le price [b] (Nat.zero_le (i - l.length))
  simpa [total] using this

theorem total_eq_zero {price : β → Nat} (h : ∀ b ∈ l, price b = 0) : total price l = 0 := by
  induction l with
  | nil => rfl
  | cons b rest ih =>
    rw [total, h b List.mem_cons_self, ih fun c hc => h c (List.mem_cons_of_mem b hc)]

end Totals

/-! ## What an event can still lead to -/

/-- What is to be paid for. -/
structure Tariff where
  /-- How many subscribers there are. -/
  crew : Nat
  /-- The price of an action of the listener or of a worker. -/
  action : Nat
  /-- The price of a report. -/
  report : Nat

namespace Tariff

variable (p : Tariff)

/-- A report of a refusal on the bus: it is taken, offered, taken and handled by each, and the
listener is done. -/
def refusalOnBus : Nat := p.crew * (3 * p.action) + 2 * p.action

/-- A report of a panic on the bus: each subscriber handles or refuses it. -/
def panicOnBus : Nat :=
  p.crew * (p.action + max (2 * p.action) (p.report + p.refusalOnBus)) + 2 * p.action

/-- An event that a worker has in hand: it may panic over all but reports. -/
def inHand (e : Event) : Nat := p.action + if e.isReport then 0 else p.report + p.panicOnBus

/-- An event in a queue. -/
def queued (e : Event) : Nat := p.action + p.inHand e

/-- An event that is offered to a subscriber. -/
def offered (e : Event) : Nat :=
  p.action +
    max (p.queued e) (if e.kind = .subscriberOverflow then 0 else p.report + p.refusalOnBus)

/-- The most that an offer can lead to. -/
def most : Nat :=
  p.action + max (2 * p.action + (p.report + p.panicOnBus)) (p.report + p.refusalOnBus)

/-- An event on the bus. -/
def onBus (e : Event) : Nat := p.crew * p.offered e + 2 * p.action

theorem offered_le_most (e : Event) : p.offered e ≤ p.most := by
  unfold offered most queued inHand
  split <;> split <;> omega

theorem onBus_le (e : Event) : p.onBus e ≤ p.crew * p.most + 2 * p.action :=
  Nat.add_le_add_right (Nat.mul_le_mul_left _ (p.offered_le_most e)) _

theorem report_add_panicOnBus_le_most : p.report + p.panicOnBus ≤ p.most := by
  unfold most
  omega

theorem onBus_overflow (name why : String) : p.onBus (.overflow name why) = p.refusalOnBus := by
  have h : p.offered (.overflow name why) = 3 * p.action := by
    simp only [offered, queued, inHand, Event.isReport, Event.overflow, decide_true, Bool.or_true,
      if_true]
    omega
  rw [onBus, h, refusalOnBus]

theorem onBus_subscriberPanic (name info : String) :
    p.onBus (.subscriberPanic name info) = p.panicOnBus := by
  have h : p.offered (.subscriberPanic name info) =
      p.action + max (2 * p.action) (p.report + p.refusalOnBus) := by
    simp [offered, queued, inHand, Event.isReport, Event.subscriberPanic]
    omega
  rw [onBus, h, panicOnBus]

end Tariff

/-- What the events that a subscriber holds can still lead to. -/
def Subscriber.toll (s : Subscriber) (p : Tariff) : Nat :=
  total p.queued s.queue.toList + total p.inHand s.inHand.toList

namespace Delivery

variable {d t : Delivery} {action : Action} {actions : List Action}

/-- What the event that the listener is handing out can still lead to. -/
def handingToll (d : Delivery) (p : Tariff) : Nat :=
  match d.handing with
  | none => 0
  | some (e, i) => (p.crew - i) * p.offered e + p.action

theorem handingToll_of_some {p : Tariff} {e : Event} {i : Nat} (h : d.handing = some (e, i)) :
    d.handingToll p = (p.crew - i) * p.offered e + p.action := by
  simp only [handingToll, h]

/-- What all events on their way can still lead to. -/
def toll (d : Delivery) (p : Tariff) : Nat :=
  total p.onBus (d.bus.published.drop d.position) + d.handingToll p +
    total (·.toll p) d.subscribers

/-- The reports that were published. -/
def reports (d : Delivery) : Nat := d.bus.published.countP (·.isReport)

/-- What has been paid for, and what is still to be paid for. -/
def account (d : Delivery) (p : Tariff) : Nat := d.toll p + p.report * d.reports

/-! ## What an action costs -/

/-- Is it an action of the listener or of a worker? -/
def Action.isOwn : Action → Bool
  | .listen | .hand | .receive _ | .finish _ _ | .die _ => true
  | .publish _ | .offer _ _ | .stopListening => false

def Action.isPublish : Action → Bool
  | .publish _ => true
  | _ => false

def Action.isOffer : Action → Bool
  | .offer _ _ => true
  | _ => false

/-- Is a report published from outside? -/
def Action.bringsReport : Action → Bool
  | .publish e => e.isReport
  | _ => false

/-- Does a worker panic over a report? -/
def relapse (d : Delivery) : Action → Bool
  | .finish i (some _) => (d.subscribers[i]?).any fun s => s.inHand.any (·.isReport)
  | _ => false

/-- What comes to the account with an action. -/
def charge (d : Delivery) (p : Tariff) (action : Action) : Nat :=
  p.most * (p.crew * action.isPublish.toNat + action.isOffer.toNat + (d.relapse action).toNat) +
    2 * p.action * action.isPublish.toNat + p.report * action.bringsReport.toNat

variable {p : Tariff}

theorem countP_isReport_publish (bus : Bus Event) (e : Event) :
    (bus.publish e).published.countP (·.isReport) =
      bus.published.countP (·.isReport) + e.isReport.toNat := by
  rw [Bus.published_publish, List.countP_append]
  cases he : e.isReport <;> simp [he]

theorem account_publish_le (e : Event) :
    (d.publish e).account p ≤ d.account p + p.onBus e + p.report * e.isReport.toNat := by
  have hbus : (d.publish e).bus.published = d.bus.published ++ [e] := Bus.published_publish ..
  have hreports : (d.publish e).reports = d.reports + e.isReport.toNat :=
    countP_isReport_publish d.bus e
  have htotal := total_drop_append_singleton_le p.onBus d.bus.published e d.position
  have htoll : (d.publish e).toll p ≤ d.toll p + p.onBus e := by
    unfold toll
    rw [hbus]
    simp only [publish, handingToll]
    omega
  rw [account, account, hreports, Nat.mul_add]
  omega

/-- A subscriber is changed. -/
theorem account_set {i : Nat} {s : Subscriber} (hs : d.subscribers[i]? = some s)
    (s' : Subscriber) :
    (d.put i s').account p + s.toll p = d.account p + s'.toll p := by
  have := total_set (·.toll p) hs s'
  simp only [account, toll, handingToll, reports, put]
  omega

/-- The listener turns to something else. -/
theorem account_handing (handing : Option (Event × Nat)) :
    (d.turnTo handing).account p + d.handingToll p =
      d.account p + (d.turnTo handing).handingToll p := by
  simp only [account, toll, reports, turnTo]
  omega

/-- An offer costs an action, and leads to no more than was expected of it. -/
theorem account_passOn_le {i : Nat} {s : Subscriber} (e : Event)
    (hs : d.subscribers[i]? = some s) :
    (d.passOn i s e).account p + p.action ≤ d.account p + p.offered e := by
  have hset := account_set (p := p) hs (s.offer e)
  unfold passOn
  rcases s.offer_cases e with
    ⟨hoffer, hreport⟩ | ⟨hoffer, -, hreport⟩ | ⟨hoffer, hkind, why, hreport⟩
  · have hqueued : (s.offer e).toll p = s.toll p + p.queued e := by
      rw [hoffer]
      simp only [Subscriber.toll, Queue.toList_enqueue, total_append, total]
      omega
    have hoffered : p.action + p.queued e ≤ p.offered e :=
      Nat.add_le_add_left (Nat.le_max_left _ _) _
    simp only [hreport, report]
    omega
  · have hoffered : p.action ≤ p.offered e := Nat.le_add_right _ _
    rw [hoffer] at hset
    simp only [hreport, hoffer, report]
    omega
  · have hoffered : p.action + (p.report + p.refusalOnBus) ≤ p.offered e := by
      unfold Tariff.offered
      rw [if_neg hkind]
      exact Nat.add_le_add_left (Nat.le_max_right _ _) _
    have hpublish := account_publish_le (p := p)
      (d := d.put i s) (.overflow s.name why)
    rw [p.onBus_overflow] at hpublish
    rw [hoffer] at hset
    simp only [hreport, hoffer, report]
    have hone : p.report * (Event.overflow s.name why).isReport.toNat = p.report := by
      simp [Event.isReport, Event.overflow]
    omega

/-! ## Each action pays -/

theorem account_listen {e : Event} (he : d.bus.published[d.position]? = some e)
    (hhanding : d.handing = none) :
    { d with position := d.position + 1, handing := some (e, 0) }.account p + p.action =
      d.account p := by
  have := total_drop p.onBus he
  simp only [account, toll, reports, handingToll, hhanding, Nat.sub_zero]
  unfold Tariff.onBus at this ⊢
  omega

/-- To lose events costs no more than to take the first of them. -/
theorem account_fallBehind_le (hbehind : d.position < d.bus.oldest) :
    { d with position := d.bus.oldest }.account p + p.action ≤ d.account p := by
  have hlt : d.position < d.bus.published.length := by
    rw [Bus.length_published]
    exact Nat.lt_of_lt_of_le hbehind d.bus.oldest_le_position
  have hfirst := total_drop p.onBus (List.getElem?_eq_getElem hlt)
  have hlost := total_drop_le p.onBus d.bus.published (Nat.succ_le_of_lt hbehind)
  have hprice : 2 * p.action ≤ p.onBus d.bus.published[d.position] := Nat.le_add_left _ _
  simp only [account, toll, reports, handingToll]
  simp only [Nat.succ_eq_add_one] at hlost
  omega

theorem account_hand_le {e : Event} {i : Nat} {s : Subscriber}
    (hhanding : d.handing = some (e, i)) (hs : d.subscribers[i]? = some s)
    (hcrew : d.subscribers.length = p.crew) :
    ((d.passOn i s e).turnTo (some (e, i + 1))).account p + p.action ≤ d.account p := by
  have hpass := account_passOn_le (p := p) e hs
  have hturn := account_handing (d := d.passOn i s e) (p := p) (some (e, i + 1))
  have hsame : (d.passOn i s e).handing = some (e, i) := by
    unfold passOn
    cases s.refusalReport e <;> exact hhanding
  have hpassed := handingToll_of_some (p := p) hsame
  have hnew : ((d.passOn i s e).turnTo (some (e, i + 1))).handingToll p =
      (p.crew - (i + 1)) * p.offered e + p.action := rfl
  have hlt : i < p.crew := hcrew ▸ (List.getElem?_eq_some_iff.1 hs).1
  have hone : (p.crew - i) * p.offered e = (p.crew - (i + 1)) * p.offered e + p.offered e := by
    rw [← Nat.succ_mul]
    congr 1
    omega
  omega

theorem account_handedOut_le {e : Event} {i : Nat} (hhanding : d.handing = some (e, i)) :
    (d.turnTo none).account p + p.action ≤ d.account p := by
  have := account_handing (d := d) (p := p) none
  have hold := handingToll_of_some (p := p) hhanding
  have hnew : (d.turnTo none).handingToll p = 0 := rfl
  omega

theorem account_receive {i : Nat} {s : Subscriber} {e : Event} {queue : Queue Event}
    (hs : d.subscribers[i]? = some s) (hhand : s.inHand = none)
    (hqueue : s.queue.dequeue? = some (e, queue)) :
    (d.put i { s with queue, inHand := some e }).account p + p.action = d.account p := by
  have hset := account_set (p := p) hs { s with queue, inHand := some e }
  have hold : s.toll p = p.queued e + total p.queued queue.toList := by
    simp [Subscriber.toll, hhand, Queue.toList_of_dequeue? hqueue, total]
  have hnew : { s with queue, inHand := some e }.toll p =
      total p.queued queue.toList + p.inHand e := by
    simp [Subscriber.toll, total]
  have : p.queued e = p.action + p.inHand e := rfl
  omega

/-- A worker that is done with an event has nothing more to pay for it. -/
theorem account_idle {i : Nat} {s : Subscriber} {e : Event} (hs : d.subscribers[i]? = some s)
    (he : s.inHand = some e) :
    (d.put i { s with inHand := none }).account p + p.inHand e = d.account p := by
  have hset := account_set (p := p) hs { s with inHand := none }
  have hold : s.toll p = total p.queued s.queue.toList + p.inHand e := by
    simp [Subscriber.toll, he, total]
  have hnew : { s with inHand := none }.toll p = total p.queued s.queue.toList := by
    simp [Subscriber.toll, total]
  omega

/-- A panic is paid for by the event in hand, or charged if that is a report. -/
theorem account_panic_le {i : Nat} {s : Subscriber} {e : Event} (payload : PanicPayload)
    (hs : d.subscribers[i]? = some s) (he : s.inHand = some e) :
    ((d.put i { s with inHand := none }).publish
        (.subscriberPanic s.name payload.text)).account p + p.action ≤
      d.account p + p.most * (d.relapse (.finish i (some payload))).toNat := by
  have hidle := account_idle (p := p) hs he
  have hpublish := account_publish_le (p := p)
    (d := d.put i { s with inHand := none })
    (.subscriberPanic s.name payload.text)
  have hone : p.report * (Event.subscriberPanic s.name payload.text).isReport.toNat = p.report := by
    simp [Event.isReport, Event.subscriberPanic]
  rw [p.onBus_subscriberPanic] at hpublish
  have hmost := p.report_add_panicOnBus_le_most
  have hrelapse : d.relapse (.finish i (some payload)) = e.isReport := by
    simp [relapse, hs, he]
  rw [hrelapse]
  unfold Tariff.inHand at hidle
  cases hreport : e.isReport <;> simp [hreport] at hidle ⊢ <;> omega

theorem account_die_le {i : Nat} {s : Subscriber} {e : Event} (hs : d.subscribers[i]? = some s)
    (he : s.inHand = some e) :
    (d.put i { s with inHand := none, queue := {}, alive := false }).account p + p.action ≤
      d.account p := by
  have hset := account_set (p := p) hs
    { s with inHand := none, queue := {}, alive := false }
  have hold : s.toll p = total p.queued s.queue.toList + p.inHand e := by
    simp [Subscriber.toll, he, total]
  have hnew : { s with inHand := none, queue := {}, alive := false }.toll p = 0 := by
    simp [Subscriber.toll, total]
  have : p.action ≤ p.inHand e := Nat.le_add_right _ _
  omega

/-- What pays its own price needs no charge. -/
theorem add_own_le {n : Nat} (h : n + p.action ≤ d.account p) :
    n + p.action * action.isOwn.toNat ≤ d.account p + d.charge p action := by
  have : p.action * action.isOwn.toNat ≤ p.action := by
    cases action.isOwn <;> simp
  omega

/-- Every action is paid for out of what was laid up and what comes to the account with it. -/
theorem Step.account_le (h : Step d action t) (hcrew : d.subscribers.length = p.crew) :
    t.account p + p.action * action.isOwn.toNat ≤ d.account p + d.charge p action := by
  cases h with
  | @publish e =>
    have hpublish := account_publish_le (d := d) (p := p) e
    have hprice := p.onBus_le e
    have hcharge : d.charge p (.publish e) =
        p.crew * p.most + 2 * p.action + p.report * e.isReport.toNat := by
      simp [charge, Action.isPublish, Action.isOffer, Action.bringsReport, relapse,
        Nat.mul_comm p.most]
    simp only [hcharge, Action.isOwn, Bool.toNat_false, Nat.mul_zero]
    omega
  | @offer i e s hs =>
    have hpass := account_passOn_le (p := p) e hs
    have hprice := p.offered_le_most e
    have hcharge : d.charge p (.offer i e) = p.most := by
      simp [charge, Action.isPublish, Action.isOffer, Action.bringsReport, relapse]
    simp only [hcharge, Action.isOwn, Bool.toNat_false, Nat.mul_zero]
    omega
  | listen _ hhanding _ he => exact add_own_le (Nat.le_of_eq (account_listen he hhanding))
  | fallBehind _ _ hbehind => exact add_own_le (account_fallBehind_le hbehind)
  | hand hhanding hs => exact add_own_le (account_hand_le hhanding hs hcrew)
  | handedOut hhanding _ => exact add_own_le (account_handedOut_le hhanding)
  | receive hs _ hhand hqueue => exact add_own_le (Nat.le_of_eq (account_receive hs hhand hqueue))
  | @finish i s e hs he =>
    have hidle := account_idle (p := p) hs he
    have hprice : p.action ≤ p.inHand e := Nat.le_add_right _ _
    exact add_own_le (by omega)
  | @panic i s e payload hs he =>
    have hpanic := account_panic_le (p := p) payload hs he
    have hcharge : d.charge p (.finish i (some payload)) =
        p.most * (d.relapse (.finish i (some payload))).toNat := by
      simp [charge, Action.isPublish, Action.isOffer, Action.bringsReport]
    simp only [hcharge, Action.isOwn, Bool.toNat_true, Nat.mul_one]
    omega
  | die hs he => exact add_own_le (account_die_le hs he)
  | stopListening =>
    have hturn := account_handing (d := d) (p := p) none
    have hnew : (d.turnTo none).handingToll p = 0 := rfl
    have hlistening : { d with listening := false, handing := none }.account p =
        (d.turnTo none).account p := rfl
    rw [hlistening]
    simp only [Action.isOwn, Bool.toNat_false, Nat.mul_zero]
    omega

/-! ## A whole history -/

/-- How many handlings a history asks for: each event that is published is for every subscriber,
each that is offered is for one, and a panic over a report asks for one more. -/
def causes (d : Delivery) (actions : List Action) : Nat :=
  d.subscribers.length * actions.countP (·.isPublish) + actions.countP (·.isOffer) +
    d.count relapse actions

/-- What comes to the account along a history. -/
def income (d : Delivery) (p : Tariff) (actions : List Action) : Nat :=
  p.most * d.causes actions + 2 * p.action * actions.countP (·.isPublish) +
    p.report * actions.countP (·.bringsReport)

theorem income_cons {rest : List Action} (h : d.step? action = some t)
    (hcrew : d.subscribers.length = p.crew) :
    d.income p (action :: rest) = d.charge p action + t.income p rest := by
  have hlength := (Step.of_step? h).length_subscribers
  simp only [income, causes, charge, countP_cons_toNat, count_cons h, hlength, hcrew, Nat.mul_add]
  omega

/-- What is done along a history is paid for. -/
theorem account_steps?_le (h : d.steps? actions = some t) (hcrew : d.subscribers.length = p.crew) :
    t.account p + p.action * actions.countP (·.isOwn) ≤ d.account p + d.income p actions := by
  induction actions generalizing d with
  | nil =>
    cases h
    simp
  | cons a rest ih =>
    obtain ⟨u, hone, hrest⟩ := exists_of_steps?_cons h
    have hstep := Step.of_step? hone
    have hnow := hstep.account_le (p := p) hcrew
    have hlater := ih hrest (hstep.length_subscribers.trans hcrew)
    rw [income_cons hone hcrew, countP_cons_toNat, Nat.mul_add]
    omega

/-- At the start nothing is laid up. -/
theorem account_start (busCapacity : Nat) (crew : List (String × Nat)) :
    (start busCapacity crew).account p = 0 := by
  have hidle : total (·.toll p) (start busCapacity crew).subscribers = 0 := by
    refine total_eq_zero fun s hs => ?_
    obtain ⟨member, -, rfl⟩ := List.mem_map.1 hs
    rfl
  have hbus : (start busCapacity crew).bus.published = [] := rfl
  have hhanding : (start busCapacity crew).handingToll p = 0 := rfl
  simp only [account, toll, reports, hidle, hbus, hhanding, List.drop_nil, total, List.countP_nil,
    Nat.mul_zero, Nat.add_zero]

/-- **Panics over reports are the only source of a cascade.** With `n` subscribers, the reports on
the bus that were made on the way are at most `n + 1` for each handling that was asked for, and the
listener and the workers come to rest after at most `3 * n ^ 2 + 3 * n + 5` actions for each. -/
theorem cascade_le {busCapacity : Nat} {crew : List (String × Nat)}
    (h : (start busCapacity crew).steps? actions = some d) :
    d.reports ≤ actions.countP (·.bringsReport) +
        (crew.length + 1) * (start busCapacity crew).causes actions ∧
      actions.countP (·.isOwn) ≤ 2 * actions.countP (·.isPublish) +
        (3 * crew.length ^ 2 + 3 * crew.length + 5) *
          (start busCapacity crew).causes actions := by
  have hcrew : (start busCapacity crew).subscribers.length = crew.length := by
    simp [start]
  constructor
  · -- only reports have a price
    have hpaid := account_steps?_le (p := { crew := crew.length, action := 0, report := 1 }) h hcrew
    have hmost : ({ crew := crew.length, action := 0, report := 1 } : Tariff).most =
        crew.length + 1 := by
      simp only [Tariff.most, Tariff.panicOnBus, Tariff.refusalOnBus, Nat.mul_zero, Nat.zero_add,
        Nat.add_zero, Nat.max_eq_right (Nat.zero_le 1), Nat.mul_one]
      omega
    simp only [account_start, income, hmost] at hpaid
    simp only [account] at hpaid
    omega
  · -- only actions have a price
    have hpaid := account_steps?_le (p := { crew := crew.length, action := 1, report := 0 }) h hcrew
    have hmost : ({ crew := crew.length, action := 1, report := 0 } : Tariff).most =
        3 * crew.length ^ 2 + 3 * crew.length + 5 := by
      have hrefused : max (2 * 1) (0 + (crew.length * (3 * 1) + 2 * 1)) = crew.length * 3 + 2 := by
        omega
      have hround : crew.length * (1 + (crew.length * 3 + 2)) =
          3 * crew.length ^ 2 + 3 * crew.length := by ring
      simp only [Tariff.most, Tariff.panicOnBus, Tariff.refusalOnBus, hrefused, hround]
      omega
    simp only [account_start, income, hmost] at hpaid
    omega

/-- Two subscribers panic over one event, and one of them over the report of it. -/
theorem cascade_le_relapse :
    ∃ d, (start 8 [("a", 2), ("b", 2)]).steps?
        [.publish { kind := .engineStarted }, .listen, .hand, .hand, .hand, .receive 0,
          .finish 0 (some (.message "a")), .receive 1, .finish 1 (some (.message "b")), .listen,
          .hand, .hand, .hand, .receive 0, .finish 0 (some (.message "a"))] = some d ∧
      d.reports = 3 ∧ d.reports ≤ 9 := by
  obtain ⟨d, h, hreports⟩ : ∃ d, (start 8 [("a", 2), ("b", 2)]).steps?
      [.publish { kind := .engineStarted }, .listen, .hand, .hand, .hand, .receive 0,
        .finish 0 (some (.message "a")), .receive 1, .finish 1 (some (.message "b")), .listen,
        .hand, .hand, .hand, .receive 0, .finish 0 (some (.message "a"))] = some d ∧
      d.reports = 3 := ⟨_, rfl, rfl⟩
  exact ⟨d, h, hreports, (cascade_le h).1⟩

/-! ## One panic after the other -/

/-- A lone subscriber is idle, and the listener has not seen the newest event. -/
def poised (name : String) (capacity : Nat) (bus : Bus Event) : Delivery where
  bus := bus
  subscribers := [{ name, capacity }]
  position := bus.position - 1

/-- The newest event is handed out, and the subscriber panics over it. -/
def relapsing (payload : PanicPayload) : List Action :=
  [.listen, .hand, .hand, .receive 0, .finish 0 (some payload)]

/-- The panic over the newest event becomes the newest event. -/
theorem steps?_relapsing {name : String} {capacity : Nat} {bus : Bus Event} {e : Event}
    (payload : PanicPayload) (hsize : 0 < bus.size) :
    (poised name capacity (bus.publish e)).steps? (relapsing payload) =
      some (poised name capacity
        ((bus.publish e).publish (.subscriberPanic name payload.text))) := by
  have hold : (bus.publish e).oldest ≤ bus.position := by
    simp only [Bus.oldest, Bus.publish]
    omega
  have he : (bus.publish e).published[bus.position]? = some e := by
    rw [Bus.published_publish, ← Bus.length_published]
    exact List.getElem?_concat_length
  have hlisten := (Step.listen (d := poised name capacity (bus.publish e)) rfl rfl hold he).step?_eq
  have hverdict : ({ name, capacity } : Subscriber).verdict = .accepted :=
    Subscriber.verdict_eq_accepted_iff.2 ⟨rfl, Subscriber.one_le_places _⟩
  rw [relapsing, steps?_cons, hlisten]
  simp only [Option.bind_some, steps?_cons, step?, poised, offer?, List.getElem?_cons_zero,
    List.length_singleton, Nat.zero_lt_one, if_true, Subscriber.offer, Subscriber.refusalReport,
    hverdict, Option.map_some, report, List.set_cons_zero]
  rfl

/-- Round after round, one report more. -/
theorem exists_steps?_relapsing (name : String) (capacity : Nat) (payload : PanicPayload)
    (rounds : Nat) (bus : Bus Event) (e : Event) (hsize : 0 < bus.size) :
    ∃ d, (poised name capacity (bus.publish e)).steps?
        (List.replicate rounds (relapsing payload)).flatten = some d ∧
      d.reports = (poised name capacity (bus.publish e)).reports + rounds := by
  induction rounds generalizing bus e with
  | zero => exact ⟨_, rfl, rfl⟩
  | succ rounds ih =>
    obtain ⟨d, hsteps, hreports⟩ := ih (bus.publish e)
      (.subscriberPanic name payload.text) hsize
    refine ⟨d, ?_, ?_⟩
    · rw [List.replicate_succ, List.flatten_cons, performs_steps?.append,
        steps?_relapsing payload hsize, Option.bind_some, hsteps]
    · have hone : (poised name capacity
          ((bus.publish e).publish (.subscriberPanic name payload.text))).reports =
          (poised name capacity (bus.publish e)).reports + 1 := countP_isReport_publish ..
      omega

/-- One event is enough for any number of reports, whatever the places on the bus and in the queue
of the only subscriber. -/
theorem exists_reports_eq (busCapacity : Nat) (name : String) (capacity : Nat)
    (payload : PanicPayload) {e : Event} (he : e.isReport = false) (n : Nat) :
    ∃ actions d, (start busCapacity [(name, capacity)]).steps? actions = some d ∧
      actions.countP (·.isPublish) = 1 ∧ actions.countP (·.isOffer) = 0 ∧
      actions.countP (·.bringsReport) = 0 ∧ d.reports = n := by
  have hsize : 0 < (Bus.ofCapacity busCapacity : Bus Event).size := Bus.one_le_keptFor busCapacity
  obtain ⟨d, hsteps, hreports⟩ := exists_steps?_relapsing name capacity payload n _ e hsize
  refine ⟨.publish e :: (List.replicate n (relapsing payload)).flatten, d, hsteps, ?_, ?_, ?_, ?_⟩
  · simp [relapsing, Action.isPublish]
  · simp [relapsing, Action.isOffer]
  · simp [relapsing, Action.bringsReport, he]
  · have hnone : (poised name capacity ((Bus.ofCapacity busCapacity).publish e)).reports = 0 :=
      (countP_isReport_publish ..).trans (by simp [he, Bus.ofCapacity, Bus.published])
    omega

/-- No number that depends only on the number of the subscribers and on the number of the events
published from outside bounds the reports. -/
theorem not_exists_bound_on_reports :
    ¬ ∃ bound : Nat → Nat → Nat, ∀ busCapacity crew actions d,
      (start busCapacity crew).steps? actions = some d → actions.countP (·.isOffer) = 0 →
        actions.countP (·.bringsReport) = 0 →
          d.reports ≤ bound crew.length (actions.countP (·.isPublish)) := by
  rintro ⟨bound, hbound⟩
  obtain ⟨actions, d, hsteps, hpublished, hoffered, hbrought, hreports⟩ :=
    exists_reports_eq 1 "echo" 1 (.message "echo") (e := { kind := .engineStarted }) rfl
      (bound 1 1 + 1)
  have hle := hbound 1 [("echo", 1)] actions d hsteps hoffered hbrought
  rw [hpublished, hreports] at hle
  exact Nat.not_succ_le_self _ hle

end Delivery

end CompileWatch
