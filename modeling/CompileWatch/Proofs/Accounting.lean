import CompileWatch.Proofs.Batches
import CompileWatch.Proofs.Conservation

/-!
# From the bus to the subscribers

What becomes of every event that comes on the bus, for each subscriber. The listener goes through
the bus in order, so that each event before its position has met its fate: it was lost when the
listener had fallen behind, or the listener has it in hand, or it was offered and answered. The
fates of the events make one list, beside the list of the events themselves.
-/
namespace CompileWatch

/-! ## What the service sends -/

theorem Event.isReport_of_isOfCall {e : Event} (h : e.isOfCall = true) : e.isReport = false := by
  unfold Event.isOfCall at h
  unfold Event.isReport
  cases hkind : e.kind <;> simp_all

namespace Service

variable {α : Type} {s t : Service α} {action : Action α} {actions : List (Action α)}
  {sent : List Stamped}

/-- The service itself makes no reports about subscribers. -/
theorem Step.not_isReport (h : Step s action t sent) (hs : s.Reachable) :
    ∀ e ∈ sent, e.event.isReport = false := by
  intro e he
  cases h.sentBy hs.signed he with
  | run _ hrun _ =>
    have hkind := hrun.kind_of_mem he
    unfold Event.isReport
    cases hk : e.event.kind <;> simp_all
  | start _ hevent => rw [hevent]; rfl
  | panic _ _ _ hevent => rw [hevent]; rfl
  | @last a how _ _ _ hevent =>
    rw [hevent]
    cases how <;> rfl
  | retrieval haction _ =>
    subst haction
    exact Event.isReport_of_isOfCall (h.isOfCall_of_ask hs e he)

theorem not_isReport_of_steps? {config : Config} {sink : MessageSink} {text : String}
    (h : (ofConfig config sink text).steps? actions = some (t, sent)) :
    ∀ e ∈ sent, e.event.isReport = false := by
  refine steps?_induct (motive := fun _ _ told => ∀ e ∈ told, e.event.isReport = false)
    ?_ (fun _ he => nomatch he) h
  intro first u v a told more hfirst hone ih e he
  rcases List.mem_append.1 he with hold | hnew
  · exact ih e hold
  · exact (Step.of_step? hone).not_isReport ⟨config, sink, text, first, told, hfirst⟩ e hnew

end Service

/-! ## Two lists side by side -/

section Zip

variable {β γ : Type} {l : List β} {m : List γ}

theorem zip_append_left_of_le (h : m.length ≤ l.length) (l' : List β) :
    (l ++ l').zip m = l.zip m := by
  induction l generalizing m with
  | nil => rw [List.eq_nil_of_length_eq_zero (Nat.le_zero.1 h), List.zip_nil_right,
      List.zip_nil_right]
  | cons b rest ih =>
    cases m with
    | nil => rfl
    | cons c m =>
      rw [List.cons_append, List.zip_cons_cons, List.zip_cons_cons, ih (by simpa using h)]

theorem zip_append_right_of_le (h : m.length ≤ l.length) (m' : List γ) :
    l.zip (m ++ m') = l.zip m ++ (l.drop m.length).zip m' := by
  induction l generalizing m with
  | nil => rw [List.eq_nil_of_length_eq_zero (Nat.le_zero.1 h)]; simp
  | cons b rest ih =>
    cases m with
    | nil => rfl
    | cons c m => simp [ih (by simpa using h)]

/-- The places of an item that a list ends with. -/
theorem getElem?_append_replicate_iff {b : β} {n k : Nat} (hb : b ∉ l) :
    (l ++ List.replicate n b)[k]? = some b ↔ l.length ≤ k ∧ k < l.length + n := by
  by_cases hk : k < l.length
  · rw [List.getElem?_append_left hk]
    exact ⟨fun h => absurd (List.mem_of_getElem? h) hb, fun h => absurd h.1 (Nat.not_le.2 hk)⟩
  · rw [List.getElem?_append_right (Nat.not_lt.1 hk), List.getElem?_replicate]
    split
    · exact ⟨fun _ => ⟨by omega, by omega⟩, fun _ => rfl⟩
    · exact ⟨fun h => (nomatch h), fun h => by omega⟩

/-- The place of an item that is nowhere else in a list. -/
theorem getElem?_append_cons_iff {b : β} {l' : List β} {k : Nat} (hb : b ∉ l) (hb' : b ∉ l') :
    (l ++ b :: l')[k]? = some b ↔ k = l.length := by
  constructor
  · intro h
    rcases Nat.lt_trichotomy k l.length with hk | hk | hk
    · rw [List.getElem?_append_left hk] at h
      exact absurd (List.mem_of_getElem? h) hb
    · exact hk
    · rw [List.getElem?_append_right (Nat.le_of_lt hk),
        show k - l.length = (k - l.length - 1) + 1 by omega, List.getElem?_cons_succ] at h
      exact absurd (List.mem_of_getElem? h) hb'
  · rintro rfl
    rw [List.getElem?_append_right (Nat.le_refl _), Nat.sub_self, List.getElem?_cons_zero]

/-- What is picked from a list by what stands beside it comes in the order of the list. -/
theorem filterMap_zip_sublist (p : γ → Bool) (l : List β) (m : List γ) :
    ((l.zip m).filterMap fun x => if p x.2 then some x.1 else none).Sublist l := by
  induction l generalizing m with
  | nil => simp
  | cons b rest ih =>
    cases m with
    | nil => simp
    | cons c m =>
      rw [List.zip_cons_cons]
      cases hp : p c with
      | true => simpa [hp] using (ih m).cons_cons b
      | false => simpa [hp] using (ih m).cons b

end Zip

/-! ## Fates -/

/-- What has become of an event on the bus, for one subscriber. -/
inductive Fate where
  /-- The listener has not got so far. -/
  | waiting
  /-- The listener had fallen behind, and lost it. -/
  | lost
  /-- The listener has it in hand, and has not offered it to the subscriber yet. -/
  | inHand
  /-- It was offered to the subscriber, and this was the answer. -/
  | answered (answer : Subscriber.Offer)
  deriving DecidableEq, Repr

def Fate.answer? : Fate → Option Subscriber.Offer
  | .answered answer => some answer
  | _ => none

namespace Note

/-- The fates that are settled with a note, for the `i`-th subscriber. -/
def fates (i : Nat) : Note → List Fate
  | lost n => List.replicate n .lost
  | offered j _ answer => if j = i then [.answered answer] else []
  | _ => []

/-- How many events the listener was told that it has lost. -/
def lostCount : Note → Nat
  | lost n => n
  | _ => 0

/-- Was an event refused that is not itself the report of a refusal? -/
def isRefusal : Note → Bool
  | offered _ e answer => answer ≠ .accepted && e.kind ≠ .subscriberOverflow
  | _ => false

/-- Did the listener get an event that is not the report of a refusal? -/
def isNews : Note → Bool
  | received e => e.kind ≠ .subscriberOverflow
  | _ => false

/-- Reports of refusals come on the bus with refusals, if nobody sends them from outside. -/
theorem countP_onBus? {names : List String} {note : Note}
    (hsent : ∀ e, note = .sent e → e.kind ≠ .subscriberOverflow)
    (hoffered : ∀ i e answer, note = .offered i e answer → i < names.length) :
    (note.onBus? names).toList.countP (·.kind = .subscriberOverflow) = note.isRefusal.toNat := by
  cases note with
  | sent e => simp [onBus?, isRefusal, hsent e rfl]
  | offered i e answer =>
    have hname := List.getElem?_eq_getElem (hoffered i e answer rfl)
    by_cases hkind : e.kind = .subscriberOverflow
    · simp [onBus?, isRefusal, hkind]
    · cases answer <;> simp [onBus?, isRefusal, hkind, hname, Event.overflow]
  | handled i e panic =>
    cases panic with
    | none => rfl
    | some payload =>
      cases hname : names[i]? <;> simp [onBus?, isRefusal, hname, Event.subscriberPanic]
  | _ => rfl

end Note

namespace Delivery

variable {d t : Delivery} {action : Action} {actions : List Action} {i : Nat} {notes : List Note}
  {e : Event} {busCapacity : Nat} {crew : List (String × Nat)}

/-- Can it happen as long as an engine is there? Only its listener offers events, and it goes on
listening. -/
def Action.inEngine : Action → Bool
  | .offer _ _ | .stopListening => false
  | _ => true

/-- The event that is published from outside. -/
def Action.sent? : Action → Option Event
  | .publish e => some e
  | _ => none

/-- The fate of the event that the listener has in hand, until it is offered. -/
def pending (d : Delivery) (i : Nat) : List Fate :=
  match d.handing with
  | some (_, j) => if j ≤ i then [.inHand] else []
  | none => []

theorem pending_of_none (h : d.handing = none) : d.pending i = [] := by
  simp only [pending, h]

theorem pending_cases (d : Delivery) (i : Nat) :
    (d.pending i = [.inHand] ∧ ∃ e j, d.handing = some (e, j) ∧ j ≤ i) ∨
      (d.pending i = [] ∧ ¬ ∃ e j, d.handing = some (e, j) ∧ j ≤ i) := by
  unfold pending
  cases hhanding : d.handing with
  | none => exact .inr ⟨rfl, fun ⟨_, _, h, _⟩ => nomatch h⟩
  | some next =>
    obtain ⟨e, j⟩ := next
    by_cases hij : j ≤ i
    · exact .inl ⟨if_pos hij, e, j, rfl, hij⟩
    · refine .inr ⟨if_neg hij, ?_⟩
      rintro ⟨_, _, h, hle⟩
      cases h
      exact hij hle

theorem pending_of_some {j : Nat} (h : d.handing = some (e, j)) :
    d.pending i = if j ≤ i then [.inHand] else [] := by
  simp only [pending, h]

/-- The fates that are settled so far. -/
def settled (i : Nat) (notes : List Note) : List Fate := notes.flatMap (Note.fates i)

theorem settled_append_toList (i : Nat) (notes : List Note) (note : Option Note) :
    settled i (notes ++ note.toList) = settled i notes ++ note.toList.flatMap (Note.fates i) :=
  List.flatMap_append

/-- The offers to one subscriber, as the fates beside the events tell them. -/
def answersIn (events : List Event) (fates : List Fate) : List (Event × Subscriber.Offer) :=
  (events.zip fates).filterMap fun x => x.2.answer?.map (x.1, ·)

theorem answersIn_append_events {fates : List Fate} {events : List Event}
    (h : fates.length ≤ events.length) (more : List Event) :
    answersIn (events ++ more) fates = answersIn events fates := by
  rw [answersIn, zip_append_left_of_le h, answersIn]

/-- Events without an answer tell of no offer. -/
theorem answersIn_append_fates {fates more : List Fate} {events : List Event}
    (h : fates.length ≤ events.length) (hmore : ∀ f ∈ more, f.answer? = none) :
    answersIn events (fates ++ more) = answersIn events fates := by
  rw [answersIn, zip_append_right_of_le h, List.filterMap_append, answersIn,
    List.append_right_eq_self]
  refine List.filterMap_eq_nil_iff.2 fun x hx => ?_
  rw [hmore x.2 (List.of_mem_zip hx).2, Option.map_none]

theorem answersIn_append_answer {fates : List Fate} {events : List Event}
    (he : events[fates.length]? = some e) (answer : Subscriber.Offer) :
    answersIn events (fates ++ [.answered answer]) = answersIn events fates ++ [(e, answer)] := by
  obtain ⟨hlt, rfl⟩ := List.getElem?_eq_some_iff.1 he
  rw [answersIn, zip_append_right_of_le (Nat.le_of_lt hlt), List.filterMap_append,
    List.drop_eq_getElem_cons hlt, List.zip_cons_cons, List.zip_nil_right]
  rfl

/-- The fates that are settled, and the one that is pending, are those of the events before the
position of the listener. -/
structure Ledger (i : Nat) (d : Delivery) (notes : List Note) : Prop where
  length : (settled i notes).length + (d.pending i).length = d.position
  position_le : d.position ≤ d.bus.published.length
  /-- What the listener has in hand was the last that it got. -/
  handing {e : Event} {j : Nat} : d.handing = some (e, j) →
    0 < d.position ∧ d.bus.published[d.position - 1]? = some e
  answers : answersIn d.bus.published (settled i notes) = notes.filterMap (Note.answer? i)

theorem Ledger.length_settled_le (h : Ledger i d notes) :
    (settled i notes).length ≤ d.bus.published.length := by
  have := h.length
  have := h.position_le
  omega

/-- What does not concern the listener settles nothing. -/
theorem Ledger.aside (h : Ledger i d notes) {note : Option Note} {events : List Event}
    (hposition : t.position = d.position) (hhanding : t.handing = d.handing)
    (hbus : t.bus.published = d.bus.published ++ events)
    (hfates : note.toList.flatMap (Note.fates i) = [])
    (hanswer : note.bind (Note.answer? i) = none) : Ledger i t (notes ++ note.toList) where
  length := by
    rw [settled_append_toList, hfates, List.append_nil, hposition, ← h.length, pending, pending,
      hhanding]
  position_le := by
    have := h.position_le
    rw [hposition, hbus, List.length_append]
    omega
  handing hj := by
    rw [hhanding] at hj
    obtain ⟨hpos, he⟩ := h.handing hj
    rw [hposition, hbus, List.getElem?_append_left (List.getElem?_eq_some_iff.1 he).1]
    exact ⟨hpos, he⟩
  answers := by
    rw [settled_append_toList, hfates, List.append_nil, hbus,
      answersIn_append_events h.length_settled_le, h.answers, filterMap_append_toList, hanswer]
    exact (List.append_nil _).symm

/-- The listener gets an event. -/
theorem Ledger.listen (h : Ledger i d notes) (hnone : d.handing = none)
    (he : d.bus.published[d.position]? = some e) :
    Ledger i { d with position := d.position + 1, handing := some (e, 0) }
      (notes ++ [.received e]) where
  length := by
    have hlength := h.length
    rw [pending_of_none hnone] at hlength
    rw [pending_of_some rfl, if_pos (Nat.zero_le i)]
    simpa [settled, Note.fates] using hlength
  position_le := (List.getElem?_eq_some_iff.1 he).1
  handing hj := by
    cases hj
    exact ⟨Nat.succ_pos _, he⟩
  answers := by
    have hnone : [Note.received e].filterMap (Note.answer? i) = [] := rfl
    simpa [settled, Note.fates, hnone] using h.answers

/-- The listener has fallen behind. -/
theorem Ledger.fallBehind (h : Ledger i d notes) (hnone : d.handing = none)
    (hbehind : d.position < d.bus.oldest) :
    Ledger i { d with position := d.bus.oldest }
      (notes ++ [.lost (d.bus.oldest - d.position)]) where
  length := by
    have hlength := h.length
    rw [pending_of_none hnone] at hlength
    rw [pending_of_none (d := { d with position := d.bus.oldest }) hnone]
    simp only [settled, List.flatMap_append, List.flatMap_singleton, Note.fates, List.length_append,
      List.length_replicate, List.length_nil] at hlength ⊢
    omega
  position_le := Nat.le_trans d.bus.oldest_le_position (Nat.le_of_eq d.bus.length_published.symm)
  handing hj := by cases hnone.symm.trans hj
  answers := by
    have hlost : ∀ f ∈ List.replicate (d.bus.oldest - d.position) Fate.lost, f.answer? = none := by
      intro f hf
      rw [List.eq_of_mem_replicate hf]
      rfl
    have hanswers := answersIn_append_fates h.length_settled_le hlost
    have hnone : [Note.lost (d.bus.oldest - d.position)].filterMap (Note.answer? i) = [] := rfl
    rw [h.answers] at hanswers
    simpa [settled, Note.fates, hnone] using hanswers

/-- The listener offers what it has in hand to the next subscriber. -/
theorem Ledger.hand (h : Ledger i d notes) {j : Nat} {s : Subscriber}
    (hhanding : d.handing = some (e, j)) :
    Ledger i ((d.passOn j s e).turnTo (some (e, j + 1)))
      (notes ++ [.offered j e s.verdict]) := by
  obtain ⟨hpos, he⟩ := h.handing hhanding
  have hlength := h.length
  have hle := h.position_le
  have hsettled := h.length_settled_le
  have hbus : (d.passOn j s e).bus.published = d.bus.published ++ (s.refusalReport e).toList :=
    published_report ..
  rw [pending_of_some hhanding] at hlength
  have hnext : ((d.passOn j s e).turnTo (some (e, j + 1))).pending i =
      if j + 1 ≤ i then [.inHand] else [] := pending_of_some rfl
  refine ⟨?_, ?_, fun hj => ?_, ?_⟩
  · rw [hnext]
    by_cases hij : j = i
    · subst hij
      simp [settled, Note.fates] at hlength ⊢
      simpa [turnTo, position_passOn] using hlength
    · have hiff : j + 1 ≤ i ↔ j ≤ i := by omega
      simpa [settled, Note.fates, hij, hiff, turnTo, position_passOn] using hlength
  · simp only [turnTo, position_passOn, hbus, List.length_append]
    omega
  · cases hj
    simp only [turnTo, position_passOn, hbus,
      List.getElem?_append_left (List.getElem?_eq_some_iff.1 he).1]
    exact ⟨hpos, he⟩
  · have hpublished : ((d.passOn j s e).turnTo (some (e, j + 1))).bus.published =
        d.bus.published ++ (s.refusalReport e).toList := hbus
    rw [hpublished, List.filterMap_append, ← h.answers]
    by_cases hij : j = i
    · subst hij
      rw [if_pos (Nat.le_refl j), List.length_singleton] at hlength
      rw [← hlength, Nat.add_sub_cancel] at he
      have hanswer := answersIn_append_answer he s.verdict
      rw [answersIn_append_events]
      · simpa [settled, Note.fates, Note.answer?] using hanswer
      · simp only [settled, List.flatMap_append, List.flatMap_singleton, Note.fates, if_true,
          List.length_append, List.length_singleton] at hlength ⊢
        omega
    · rw [answersIn_append_events (by simpa [settled, Note.fates, hij] using hsettled)]
      simp [settled, Note.fates, Note.answer?, hij]

/-- The listener is done with what it has in hand. -/
theorem Ledger.handedOut (h : Ledger i d notes) {j : Nat} (hhanding : d.handing = some (e, j))
    (hij : i < j) : Ledger i (d.turnTo none) notes where
  length := by
    have hlength := h.length
    rwa [pending_of_some hhanding, if_neg (by omega)] at hlength
  position_le := h.position_le
  handing hj := nomatch hj
  answers := h.answers

/-- Each action within an engine keeps the ledger. -/
theorem Step.ledger (h : Step d action t) (hi : i < d.subscribers.length)
    (hengine : action.inEngine = true) (hl : Ledger i d notes) :
    Ledger i t (notes ++ (d.note? action).toList) := by
  cases h with
  | offer _ | stopListening => cases hengine
  | publish => exact hl.aside rfl rfl (Bus.published_publish ..) rfl rfl
  | receive hs _ _ hqueue =>
    rw [note?_receive hs hqueue]
    exact hl.aside rfl rfl (List.append_nil _).symm rfl rfl
  | finish hs he =>
    rw [note?_finish hs he]
    exact hl.aside rfl rfl (List.append_nil _).symm rfl rfl
  | panic hs he =>
    rw [note?_finish hs he]
    exact hl.aside rfl rfl (Bus.published_publish ..) rfl rfl
  | die _ _ => exact hl.aside rfl rfl (List.append_nil _).symm rfl rfl
  | listen _ hnone hold he =>
    rw [note?_listen hold he]
    exact hl.listen hnone he
  | fallBehind _ hnone hbehind =>
    rw [note?_fallBehind hbehind]
    exact hl.fallBehind hnone hbehind
  | hand hhanding hs =>
    rw [note?_hand hhanding hs]
    exact hl.hand hhanding
  | handedOut hhanding hle =>
    rw [note?_handedOut hhanding hle, Option.toList_none, List.append_nil]
    exact hl.handedOut hhanding (Nat.lt_of_lt_of_le hi hle)

theorem ledger_start (i busCapacity : Nat) (crew : List (String × Nat)) :
    Ledger i (start busCapacity crew) [] where
  length := rfl
  position_le := Nat.zero_le _
  handing hj := nomatch hj
  answers := rfl

theorem length_subscribers_start (busCapacity : Nat) (crew : List (String × Nat)) :
    (start busCapacity crew).subscribers.length = crew.length := by
  simp [start]

/-- The ledger is kept along every history within an engine. -/
theorem ledger_of_steps? (h : (start busCapacity crew).steps? actions = some d)
    (hengine : ∀ a ∈ actions, a.inEngine = true) (hi : i < crew.length) :
    Ledger i d ((start busCapacity crew).record actions) := by
  refine (record_induct (motive := fun u notes => u.subscribers.length = crew.length ∧
    Ledger i u notes) ?_ h ⟨length_subscribers_start .., ledger_start ..⟩).2
  rintro u v a notes ha hstep ⟨hlength, hl⟩
  exact ⟨hstep.length_subscribers.trans hlength,
    hstep.ledger (hlength ▸ hi) (hengine a ha) hl⟩

/-! ## The fates of all events -/

/-- One fate for each event that was published. -/
structure AccountsFor (fates : List Fate) (i : Nat) (d : Delivery) (record : List Note) :
    Prop where
  length : fates.length = d.bus.published.length
  /-- Those wait that the listener has not got so far as. -/
  waiting {k : Nat} : fates[k]? = some .waiting ↔
    d.position ≤ k ∧ k < d.bus.published.length
  /-- As many were lost as the listener was told. -/
  lost : fates.count .lost = (record.map Note.lostCount).sum
  /-- Only the last that the listener got can be in its hand. -/
  inHand {k : Nat} : fates[k]? = some .inHand ↔
    k + 1 = d.position ∧ ∃ e j, d.handing = some (e, j) ∧ j ≤ i
  /-- All others were offered, in order, with these answers. -/
  answered : answersIn d.bus.published fates = record.filterMap (Note.answer? i)

/-- What is settled does not wait and is in nobody's hand. -/
theorem of_mem_settled {f : Fate} (hf : f ∈ settled i notes) :
    f = .lost ∨ ∃ answer, f = .answered answer := by
  obtain ⟨note, -, hf⟩ := List.mem_flatMap.1 hf
  cases note with
  | lost n => exact .inl (List.eq_of_mem_replicate hf)
  | offered j e answer =>
    by_cases hij : j = i
    · exact .inr ⟨answer, by simpa [Note.fates, hij] using hf⟩
    · simp [Note.fates, hij] at hf
  | _ => cases hf

theorem count_lost_settled (i : Nat) (notes : List Note) :
    (settled i notes).count .lost = (notes.map Note.lostCount).sum := by
  induction notes with
  | nil => rfl
  | cons note rest ih =>
    have hone : (note.fates i).count .lost = note.lostCount := by
      cases note with
      | lost n => exact List.count_replicate_self
      | offered j e answer => by_cases hij : j = i <;> simp [Note.fates, Note.lostCount, hij]
      | _ => rfl
    have hcons : settled i (note :: rest) = note.fates i ++ settled i rest := rfl
    rw [hcons, List.count_append, hone, ih, List.map_cons, List.sum_cons]

/-- What is settled, what is pending, and what waits: together these are the fates of all events. -/
theorem Ledger.exists_accountsFor (h : Ledger i d notes) :
    ∃ fates, AccountsFor fates i d notes := by
  have hlength := h.length
  obtain ⟨n, hn⟩ : ∃ n, d.bus.published.length = d.position + n :=
    ⟨_, (Nat.add_sub_cancel' h.position_le).symm⟩
  have hwaiting : Fate.waiting ∉ settled i notes ++ d.pending i := by
    intro hmem
    rcases List.mem_append.1 hmem with hmem | hmem
    · simpa using of_mem_settled hmem
    · rcases d.pending_cases i with ⟨hpending, -⟩ | ⟨hpending, -⟩ <;> simp [hpending] at hmem
  have hinHand : Fate.inHand ∉ settled i notes := by
    intro hmem
    simpa using of_mem_settled hmem
  have hothers : Fate.inHand ∉ List.replicate n Fate.waiting := by
    intro hmem
    cases List.eq_of_mem_replicate hmem
  refine ⟨settled i notes ++ (d.pending i ++ List.replicate n .waiting), ?_, ?_, ?_, ?_, ?_⟩
  · simp only [List.length_append, List.length_replicate]
    omega
  · intro k
    rw [← List.append_assoc, getElem?_append_replicate_iff hwaiting, List.length_append, hlength,
      hn]
  · simp only [List.count_append, count_lost_settled, List.count_replicate]
    rcases d.pending_cases i with ⟨hpending, -⟩ | ⟨hpending, -⟩ <;> simp [hpending]
  · intro k
    rcases d.pending_cases i with ⟨hpending, hhand⟩ | ⟨hpending, hhand⟩
    · rw [hpending, List.length_singleton] at hlength
      rw [hpending, List.singleton_append, getElem?_append_cons_iff hinHand hothers]
      exact ⟨fun hk => ⟨by omega, hhand⟩, fun hk => by omega⟩
    · rw [hpending, List.nil_append]
      refine ⟨fun hk => ?_, fun hk => absurd hk.2 hhand⟩
      rcases List.mem_append.1 (List.mem_of_getElem? hk) with hmem | hmem
      · exact absurd hmem hinHand
      · exact absurd hmem hothers
  · rw [answersIn_append_fates h.length_settled_le, h.answers]
    intro f hf
    rcases List.mem_append.1 hf with hf | hf
    · rcases d.pending_cases i with ⟨hpending, -⟩ | ⟨hpending, -⟩ <;> rw [hpending] at hf
      · rw [List.mem_singleton.1 hf]; rfl
      · cases hf
    · rw [List.eq_of_mem_replicate hf]; rfl

/-- An answer that was given is the fate of an event. -/
theorem AccountsFor.answered_mem {fates : List Fate} (h : AccountsFor fates i d notes)
    {answer : Subscriber.Offer} (hnote : .offered i e answer ∈ notes) :
    .answered answer ∈ fates := by
  have hmem : (e, answer) ∈ answersIn d.bus.published fates :=
    h.answered ▸ List.mem_filterMap.2 ⟨_, hnote, if_pos rfl⟩
  obtain ⟨⟨e', f⟩, hzip, hpair⟩ := List.mem_filterMap.1 hmem
  have hfate : f = .answered answer := by
    cases f <;> simp_all [Fate.answer?]
  exact hfate ▸ (List.of_mem_zip hzip).2

/-- What a subscriber accepted comes in the order of the bus. -/
theorem AccountsFor.accepted_sublist {fates : List Fate} (h : AccountsFor fates i d notes) :
    (notes.filterMap (Note.accepted? i)).Sublist d.bus.published := by
  have hnotes : Note.accepted? i = fun note =>
      (note.answer? i).bind fun x => if x.2 = .accepted then some x.1 else none :=
    funext (Note.accepted?_eq i)
  have hfates : (fun x : Event × Fate => (x.2.answer?.map (x.1, ·)).bind fun y =>
      if y.2 = .accepted then some y.1 else none) =
      fun x => if decide (x.2 = .answered .accepted) then some x.1 else none := by
    funext ⟨e, f⟩
    cases f <;> simp [Fate.answer?]
  rw [hnotes, ← List.filterMap_filterMap, ← h.answered, answersIn, List.filterMap_filterMap, hfates]
  exact filterMap_zip_sublist (fun f => decide (f = .answered .accepted)) _ fates

/-! ## What a worker takes -/

/-- What a worker took and handled, of what its subscriber accepted. -/
structure Passed (i : Nat) (s : Subscriber) (notes : List Note) : Prop where
  /-- A worker that has ended has nothing in hand. -/
  idle : s.alive = false → s.inHand = none
  taken : ∃ rest, notes.filterMap (Note.accepted? i) = notes.filterMap (Note.taken? i) ++ rest ∧
    (s.alive = true → rest = s.queue.toList)
  handled : ∃ rest, notes.filterMap (Note.taken? i) = notes.filterMap (Note.handled? i) ++ rest ∧
    (s.alive = true → rest = s.inHand.toList)

/-- As long as the worker lives, it has in hand what it took and did not handle, and what was
accepted and not taken is in the queue. -/
theorem Turn.passed {note : Option Note} {s s' : Subscriber} (h : Turn i action note s s')
    (hp : Passed i s notes) : Passed i s' (notes ++ note.toList) := by
  obtain ⟨hidle, ⟨queued, htaken, hqueued⟩, ⟨held, hhandled, hheld⟩⟩ := hp
  cases h with
  | apart _ hapart =>
    have hnone : note.bind (Note.accepted? i) = none ∧ note.bind (Note.taken? i) = none ∧
        note.bind (Note.handled? i) = none := by
      cases note with
      | none => exact ⟨rfl, rfl, rfl⟩
      | some n => simp [hapart n rfl]
    refine ⟨hidle, ⟨queued, ?_, hqueued⟩, ⟨held, ?_, hheld⟩⟩
    · rw [filterMap_append_toList, filterMap_append_toList, hnone.1, hnone.2.1, htaken]
      simp
    · rw [filterMap_append_toList, filterMap_append_toList, hnone.2.1, hnone.2.2, hhandled]
      simp
  | @offer _ s e _ =>
    cases hverdict : s.verdict with
    | accepted =>
      have halive := (Subscriber.verdict_eq_accepted_iff.1 hverdict).1
      have hoffer : s.offer e = { s with queue := s.queue.enqueue e } := if_pos hverdict
      rw [hoffer]
      refine ⟨hidle, ⟨queued ++ [e], ?_, fun _ => ?_⟩, ⟨held, ?_, hheld⟩⟩
      · rw [filterMap_append_toList, filterMap_append_toList, htaken]
        simp [Note.accepted?, Note.taken?]
      · rw [hqueued halive, Queue.toList_enqueue]
      · rw [filterMap_append_toList, filterMap_append_toList, hhandled]
        simp [Note.taken?, Note.handled?]
    | full | closed =>
      have hoffer : s.offer e = s := if_neg (by simp [hverdict])
      rw [hoffer]
      refine ⟨hidle, ⟨queued, ?_, hqueued⟩, ⟨held, ?_, hheld⟩⟩
      · rw [filterMap_append_toList, filterMap_append_toList, htaken]
        simp [Note.accepted?, Note.taken?]
      · rw [filterMap_append_toList, filterMap_append_toList, hhandled]
        simp [Note.taken?, Note.handled?]
  | @take s e queue halive hnone hqueue =>
    rw [hnone] at hheld
    refine ⟨fun hdead => ?_, ⟨queue.toList, ?_, fun _ => rfl⟩, ⟨[e], ?_, fun _ => rfl⟩⟩
    · cases halive.symm.trans hdead
    · have hfront := (hqueued halive).trans (Queue.toList_of_dequeue? hqueue)
      rw [filterMap_append_toList, filterMap_append_toList, htaken, hfront]
      simp [Note.accepted?, Note.taken?]
    · rw [filterMap_append_toList, filterMap_append_toList, hhandled, hheld halive]
      simp [Note.taken?, Note.handled?]
  | @done s e panic he =>
    have halive : s.alive = true := by
      cases hdead : s.alive with
      | true => rfl
      | false => cases he.symm.trans (hidle hdead)
    rw [he] at hheld
    refine ⟨fun _ => rfl, ⟨queued, ?_, hqueued⟩, ⟨[], ?_, fun _ => rfl⟩⟩
    · rw [filterMap_append_toList, filterMap_append_toList, htaken]
      simp [Note.accepted?, Note.taken?]
    · rw [filterMap_append_toList, filterMap_append_toList, hhandled, hheld halive]
      simp [Note.taken?, Note.handled?]
  | die _ =>
    refine ⟨fun _ => rfl, ⟨queued, ?_, fun h => absurd h Bool.false_ne_true⟩,
      ⟨held, ?_, fun h => absurd h Bool.false_ne_true⟩⟩
    · simpa using htaken
    · simpa using hhandled

theorem exists_passed (h : (start busCapacity crew).steps? actions = some d)
    (hi : i < crew.length) :
    ∃ s, d.subscribers[i]? = some s ∧ Passed i s ((start busCapacity crew).record actions) := by
  have hmember : crew[i]? = some (crew[i].1, crew[i].2) := List.getElem?_eq_getElem hi
  refine record_induct (motive := fun u notes => ∃ s, u.subscribers[i]? = some s ∧
    Passed i s notes) ?_ h ⟨_, getElem?_start hmember busCapacity, fun h => (nomatch h),
      ⟨[], rfl, fun _ => rfl⟩, ⟨[], rfl, fun _ => rfl⟩⟩
  rintro u v a notes - hstep ⟨s, hs, hp⟩
  obtain ⟨s', hs', hturn⟩ := hstep.turn hs
  exact ⟨s', hs', hturn.passed hp⟩

theorem Turn.not_closed {note : Option Note} {s s' : Subscriber} {name : String} {capacity : Nat}
    (h : Turn i action note s s') (hserved : s.Served name capacity) :
    note ≠ some (.offered i e .closed) := by
  rintro rfl
  generalize hverdict : (Subscriber.Offer.closed) = verdict at h
  cases h with
  | apart _ hapart => simpa [Note.isAbout] using hapart _ rfl
  | offer _ =>
    rw [hserved.verdict] at hverdict
    split at hverdict <;> cases hverdict

/-- Nobody is told that a living worker has gone. -/
theorem not_closed_of_lives (h : (start busCapacity crew).steps? actions = some d)
    (hi : i < crew.length) (hlives : .die i ∉ actions) :
    .offered i e .closed ∉ (start busCapacity crew).record actions := by
  have hmember : crew[i]? = some (crew[i].1, crew[i].2) := List.getElem?_eq_getElem hi
  have hrun : ∃ s, d.subscribers[i]? = some s ∧ s.Served crew[i].1 crew[i].2 ∧
      .offered i e .closed ∉ (start busCapacity crew).record actions := by
    refine record_induct (motive := fun u notes => ∃ s, u.subscribers[i]? = some s ∧
      s.Served crew[i].1 crew[i].2 ∧ .offered i e .closed ∉ notes) ?_ h
        ⟨_, getElem?_start hmember busCapacity, ⟨rfl, rfl, rfl, Nat.zero_le _⟩, List.not_mem_nil⟩
    rintro u v a notes ha hstep ⟨s, hs, hserved, hnone⟩
    obtain ⟨s', hs', hturn⟩ := hstep.turn hs
    have hnot : a ≠ .die i := fun hdie => hlives (hdie ▸ ha)
    refine ⟨s', hs', hturn.served hnot hserved, fun hmem => ?_⟩
    rcases List.mem_append.1 hmem with hmem | hmem
    · exact hnone hmem
    · exact hturn.not_closed hserved (Option.mem_toList.1 hmem)
  obtain ⟨s, -, -, hnone⟩ := hrun
  exact hnone

/-! ## Refusals and their reports -/

/-- The reports of refusals on the bus. -/
def overflows (d : Delivery) : Nat := d.bus.published.countP (·.kind = .subscriberOverflow)

/-- The refusals that can still come of the event in the listener's hand, with `n` subscribers. -/
def owed (n : Nat) (d : Delivery) : Nat :=
  match d.handing with
  | some (e, j) => if e.kind = .subscriberOverflow then 0 else n - j
  | none => 0

/-- Does a note fit an action? What is said to be sent was published, the listener gets events when
it listens, and only a subscriber that is there is offered anything. -/
def Fits (d : Delivery) (action : Action) : Note → Prop
  | .sent e => action.sent? = some e
  | .received _ => action = .listen
  | .offered i _ _ => i < d.subscribers.length
  | _ => True

theorem fits_of_note? {note : Note} (h : d.note? action = some note) : Fits d action note := by
  have offered {j : Nat} {e : Event} (h : d.offered? j e = some note) : Fits d action note := by
    obtain ⟨s, hs, rfl⟩ := Option.map_eq_some_iff.1 h
    exact (List.getElem?_eq_some_iff.1 hs).1
  cases action with
  | publish e => cases h; rfl
  | offer j e => exact offered h
  | hand =>
    obtain ⟨⟨e, j⟩, -, h⟩ := Option.bind_eq_some_iff.1 h
    exact offered h
  | listen =>
    unfold note? at h
    dsimp only at h
    split at h <;> cases h
    · rfl
    · exact True.intro
  | receive j | finish j panic =>
    obtain ⟨s, -, h⟩ := Option.bind_eq_some_iff.1 h
    obtain ⟨next, -, rfl⟩ := Option.map_eq_some_iff.1 h
    exact True.intro
  | die | stopListening => cases h

/-- For each refusal, and for nothing else, there is a report. -/
theorem Step.overflows (h : Step d action t)
    (hsent : ∀ e, action.sent? = some e → e.kind ≠ .subscriberOverflow) :
    t.overflows = d.overflows + (d.note? action).toList.countP (·.isRefusal) := by
  rw [Delivery.overflows, h.published, List.countP_append]
  congr 1
  cases hnote : d.note? action with
  | none => rfl
  | some note =>
    rw [Option.bind_some, Note.countP_onBus?]
    · cases hrefusal : note.isRefusal <;> simp [hrefusal]
    · rintro e rfl
      exact hsent e (fits_of_note? hnote)
    · rintro i e answer rfl
      rw [List.length_map]
      exact fits_of_note? hnote

/-- A refusal is paid for by the event in the listener's hand, and that by the event it got. -/
theorem Step.owed (h : Step d action t) (hengine : action.inEngine = true) :
    (d.note? action).toList.countP (·.isRefusal) + t.owed d.subscribers.length ≤
      d.owed d.subscribers.length +
        d.subscribers.length * (d.note? action).toList.countP (·.isNews) := by
  cases h with
  | offer _ | stopListening => cases hengine
  | publish => simp [Note.isRefusal, Note.isNews, Delivery.owed, Delivery.publish]
  | receive hs _ _ hqueue =>
    rw [note?_receive hs hqueue]
    simp [Note.isRefusal, Note.isNews, Delivery.owed, put]
  | finish hs he =>
    rw [note?_finish hs he]
    simp [Note.isRefusal, Note.isNews, Delivery.owed, put]
  | panic hs he =>
    rw [note?_finish hs he]
    simp [Note.isRefusal, Note.isNews, Delivery.owed, put, Delivery.publish]
  | die _ _ => simp [note?, Delivery.owed, put]
  | @listen e _ hnone hold he =>
    rw [note?_listen hold he]
    by_cases hkind : e.kind = .subscriberOverflow <;>
      simp [Note.isRefusal, Note.isNews, Delivery.owed, hnone, hkind]
  | fallBehind _ hnone hbehind =>
    rw [note?_fallBehind hbehind]
    simp [Note.isRefusal, Note.isNews, Delivery.owed, hnone]
  | @hand e j s hhanding hs =>
    rw [note?_hand hhanding hs]
    have hlt := (List.getElem?_eq_some_iff.1 hs).1
    by_cases hkind : e.kind = .subscriberOverflow
    · simp [Note.isRefusal, Note.isNews, Delivery.owed, hhanding, hkind, turnTo]
    · by_cases haccepted : s.verdict = .accepted <;>
        simp [Note.isRefusal, Note.isNews, Delivery.owed, hhanding, hkind, turnTo, haccepted] <;>
        omega
  | handedOut hhanding hle =>
    rw [note?_handedOut hhanding hle]
    simp [Delivery.owed, turnTo]

/-- Within an engine there is one report for each refusal, and at most one refusal for each
subscriber and each event that the listener got and that is not the report of one. -/
theorem overflows_of_steps? (h : (start busCapacity crew).steps? actions = some d)
    (hengine : ∀ a ∈ actions, a.inEngine = true)
    (hsent : ∀ e ∈ actions.filterMap Action.sent?, e.kind ≠ .subscriberOverflow) :
    d.overflows = ((start busCapacity crew).record actions).countP (·.isRefusal) ∧
      ((start busCapacity crew).record actions).countP (·.isRefusal) ≤
        crew.length * ((start busCapacity crew).record actions).countP (·.isNews) := by
  have hrun := record_induct (motive := fun u notes => u.subscribers.length = crew.length ∧
    u.overflows = notes.countP (·.isRefusal) ∧
      notes.countP (·.isRefusal) + u.owed crew.length ≤
        crew.length * notes.countP (·.isNews)) ?_ h
    ⟨length_subscribers_start .., rfl, Nat.zero_le _⟩
  · exact ⟨hrun.2.1, Nat.le_of_add_right_le hrun.2.2⟩
  rintro u v a notes ha hstep ⟨hlength, hoverflows, howed⟩
  have hreports := hstep.overflows fun e he => hsent e (List.mem_filterMap.2 ⟨a, ha, he⟩)
  have hpaid := hstep.owed (hengine a ha)
  rw [hlength] at hpaid
  refine ⟨hstep.length_subscribers.trans hlength, ?_, ?_⟩
  · rw [hreports, hoverflows, List.countP_append]
  · rw [List.countP_append, List.countP_append, Nat.mul_add]
    omega

/-! ## All events, for all subscribers -/

/-- **Every event is accounted for.** Whatever a service sends and however the listener and the
workers take turns, each subscriber handles what it took, takes what it accepted and accepts what
was published in that order and at most once. Each event that was published has one fate for it:
the listener has not got so far, has lost it, has it in hand, or has offered it; and then it was
accepted, or refused because the queue was full or, if the worker has ended, because nobody was left
to take it. As many refusals are reported as there were of events that are not themselves reports
of refusals; there is at most one for each subscriber and each such event that the listener got. -/
theorem every_event_accounted_for {α : Type} {config : Config} {sink : MessageSink} {text : String}
    {moves : List (CompileWatch.Action α)} {s : Service α} {sent : List Stamped}
    (hservice : (Service.ofConfig config sink text).steps? moves = some (s, sent))
    (h : (start busCapacity crew).steps? actions = some d)
    (hfed : actions.filterMap Action.sent? = sent.map (·.event))
    (hengine : ∀ a ∈ actions, a.inEngine = true) :
    (∀ i < crew.length,
      (∃ fates, AccountsFor fates i d ((start busCapacity crew).record actions)) ∧
      ((start busCapacity crew).record actions).filterMap (Note.handled? i) <+:
        ((start busCapacity crew).record actions).filterMap (Note.taken? i) ∧
      ((start busCapacity crew).record actions).filterMap (Note.taken? i) <+:
        ((start busCapacity crew).record actions).filterMap (Note.accepted? i) ∧
      (((start busCapacity crew).record actions).filterMap (Note.accepted? i)).Sublist
        d.bus.published ∧
      (.die i ∉ actions → ∀ e, .offered i e .closed ∉ (start busCapacity crew).record actions)) ∧
    d.overflows = ((start busCapacity crew).record actions).countP (·.isRefusal) ∧
    ((start busCapacity crew).record actions).countP (·.isRefusal) ≤
      crew.length * ((start busCapacity crew).record actions).countP (·.isNews) := by
  refine ⟨fun i hi => ?_, overflows_of_steps? h hengine fun e he => ?_⟩
  · obtain ⟨fates, hfates⟩ := (ledger_of_steps? h hengine hi).exists_accountsFor
    obtain ⟨r, -, -, ⟨queued, htaken, -⟩, ⟨held, hhandled, -⟩⟩ := exists_passed h hi
    exact ⟨⟨fates, hfates⟩, ⟨held, hhandled.symm⟩, ⟨queued, htaken.symm⟩, hfates.accepted_sublist,
      fun hlives e => not_closed_of_lives h hi hlives⟩
  · rw [hfed] at he
    obtain ⟨stamped, hmem, rfl⟩ := List.mem_map.1 he
    have hreport := Service.not_isReport_of_steps? hservice stamped hmem
    intro hkind
    simp [Event.isReport, hkind] at hreport

/-- A service is started and sees its first text. -/
def firstLook : List (CompileWatch.Action Nat) := [.start, .tick, .poll 1, .proceed 1]

/-- The worker of a subscriber ends over the first event, before the second one is handed out. -/
def bereft : List Action :=
  [.publish { kind := .engineStarted, run := some 1 }, .listen, .hand, .hand, .receive 0, .die 0,
    .publish { kind := .sourceChanged, run := some 1, source := some "a" }, .listen, .hand]

theorem every_event_accounted_for_bereft :
    ∃ s sent d, (Service.ofConfig {} {} "a").steps? firstLook = some (s, sent) ∧
      (start 8 [("gone", 4)]).steps? bereft = some d ∧
      bereft.filterMap Action.sent? = sent.map (·.event) ∧ (∀ a ∈ bereft, a.inEngine = true) ∧
      (∃ fates, AccountsFor fates 0 d ((start 8 [("gone", 4)]).record bereft)) ∧
      d.overflows = 1 := by
  obtain ⟨s, sent, hservice, hevents⟩ : ∃ s sent,
      (Service.ofConfig {} {} "a").steps? firstLook = some (s, sent) ∧
        bereft.filterMap Action.sent? = sent.map (·.event) := ⟨_, _, rfl, rfl⟩
  obtain ⟨d, h⟩ : ∃ d, (start 8 [("gone", 4)]).steps? bereft = some d := ⟨_, rfl⟩
  have hengine : ∀ a ∈ bereft, a.inEngine = true := by simp [bereft, Action.inEngine]
  obtain ⟨hfates, hoverflows, -⟩ := every_event_accounted_for hservice h hevents hengine
  exact ⟨s, sent, d, hservice, h, hevents, hengine, (hfates 0 Nat.zero_lt_one).1, hoverflows⟩

/-- An event can be refused though the queue has room: its worker has ended. So not every event
waits, was lost, was accepted, or was refused by a full queue. -/
theorem refused_with_room :
    ∃ s sent d, (Service.ofConfig {} {} "a").steps? firstLook = some (s, sent) ∧
      (start 8 [("gone", 4)]).steps? bereft = some d ∧
      bereft.filterMap Action.sent? = sent.map (·.event) ∧ (∀ a ∈ bereft, a.inEngine = true) ∧
      (start 8 [("gone", 4)]).record bereft =
        [.sent { kind := .engineStarted, run := some 1 },
          .received { kind := .engineStarted, run := some 1 },
          .offered 0 { kind := .engineStarted, run := some 1 } .accepted,
          .taken 0 { kind := .engineStarted, run := some 1 },
          .sent { kind := .sourceChanged, run := some 1, source := some "a" },
          .received { kind := .sourceChanged, run := some 1, source := some "a" },
          .offered 0 { kind := .sourceChanged, run := some 1, source := some "a" } .closed] ∧
      d.subscribers.map (fun s => (s.queue.size, s.places)) = [(0, 4)] ∧
      ¬ ∃ fates, AccountsFor fates 0 d ((start 8 [("gone", 4)]).record bereft) ∧
        .answered .closed ∉ fates := by
  refine ⟨_, _, _, rfl, rfl, rfl, by simp [bereft, Action.inEngine], rfl, rfl, ?_⟩
  rintro ⟨fates, hfates, hnone⟩
  refine hnone (hfates.answered_mem
    (e := { kind := .sourceChanged, run := some 1, source := some "a" }) ?_)
  exact List.mem_of_getElem? (i := 6) rfl

end Delivery

end CompileWatch
