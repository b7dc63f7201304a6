import CompileWatch.Proofs.RetrievalTime
import CompileWatch.Proofs.Senders
import CompileWatch.Proofs.SlotOrder

/-!
# No wakeup is lost

A call arms its wakeup before it looks at the slot, and an attempt stores its artifact before it
wakes the calls. So whatever is stored after a call has looked in vain is stored while the call is
armed, and the wakeup that follows reaches it. Until the call is woken, every artifact stored since
then is that of an attempt that has still to wake the calls. A call that sleeps although the slot
holds what it wants thus never needs its timer.
-/
namespace CompileWatch

namespace Retrieval

variable {α : Type}

/-- Has the call looked at the slot in vain since it armed its wakeup? -/
def hasMissed (r : Retrieval α) : Bool :=
  match r.stage with
  | .testing | .parked _ => true
  | _ => false

theorem hasMissed_of_isParked {r : Retrieval α} (h : r.isParked = true) : r.hasMissed = true := by
  unfold isParked at h
  unfold hasMissed
  split at h <;> simp_all

/-- A call that has missed hears every notification. -/
theorem notified_notify {r : Retrieval α} (h : r.hasMissed = true) : r.notify.notified = true := by
  unfold hasMissed at h
  unfold notify isArmed
  split at h <;> simp_all

theorem stage_notify (r : Retrieval α) : r.notify.stage = r.stage := by
  unfold notify
  split <;> rfl

theorem exists_stage_of_isParked {r : Retrieval α} (h : r.isParked = true) :
    ∃ wake, r.stage = .parked wake := by
  unfold isParked at h
  split at h
  · next wake hs => exact ⟨wake, hs⟩
  · cases h

/-- A call that sleeps can wake up when it is notified. -/
theorem canWake_notify {r : Retrieval α} (h : r.isParked = true) (now : Nat) :
    r.notify.canWake now = true := by
  obtain ⟨wake, hs⟩ := exists_stage_of_isParked h
  simp [canWake, r.stage_notify, hs, notified_notify (hasMissed_of_isParked h)]

/-- How many steps of its own a call has still to take until it returns what it makes of the
artifact, if it finds it at its next look. -/
inductive Returning (a : Artifact α) (r : Retrieval α) : Nat → Prop
  | settled {waited : Nat} : r.stage = .settled (resultOf a) waited → Returning a r 0
  | reporting {waited : Nat} {event : Event} : r.stage = .reporting (resultOf a) waited event →
      Returning a r 1
  | matched {waited : Nat} : r.stage = .matched a waited → Returning a r 2
  | checking : r.stage = .checking → Returning a r 3
  | arming : r.stage = .arming → Returning a r 4
  | parked {wake : Nat} : r.stage = .parked wake → Returning a r 5

variable {r : Retrieval α} {a : Artifact α} {n : Nat}

/-- With the artifact in the slot, each step of the call brings it nearer to its result. -/
theorem Returning.move {now : Nat} {slot : Slot α} {poll : Span} {move : Retrieval.Move α}
    (h : r.Returning a n) (hfound : slot.find? r.code = some a)
    (hmove : r.MoveStep now slot poll move) :
    ∃ m, move.retrieval.Returning a m ∧ n = m + 1 := by
  cases h with
  | settled hs => cases hmove <;> simp_all
  | reporting hs =>
    cases hmove with
    | settle hs' =>
      cases hs.symm.trans hs'
      exact ⟨0, .settled rfl, rfl⟩
    | _ => simp_all
  | matched hs =>
    cases hmove with
    | tellFound hs' =>
      cases hs.symm.trans hs'
      exact ⟨1, .reporting rfl, rfl⟩
    | _ => simp_all
  | checking hs =>
    cases hmove with
    | find _ hfound' =>
      cases hfound.symm.trans hfound'
      exact ⟨2, .matched rfl, rfl⟩
    | miss _ hnone => cases hfound.symm.trans hnone
    | _ => simp_all
  | arming hs =>
    cases hmove with
    | arm _ => exact ⟨3, .checking rfl, rfl⟩
    | _ => simp_all
  | parked hs => cases hmove <;> simp_all

theorem Returning.wake {now : Nat} (h : r.Returning a n) (hcan : r.canWake now = true) : n = 5 := by
  cases h with
  | parked _ => rfl
  | settled hs | reporting hs | matched hs | checking hs | arming hs =>
    simp [canWake, hs] at hcan

/-- No step is left exactly when the call has returned. -/
theorem Returning.eq_zero_iff (h : r.Returning a n) :
    n = 0 ↔ ∃ waited, r.result? = some (resultOf a, waited) := by
  cases h with
  | @settled waited hs => simp [result?, hs]
  | reporting hs | matched hs | checking hs | arming hs | parked hs => simp [result?, hs]

theorem Returning.notify (h : r.Returning a n) : r.notify.Returning a n := by
  have hsame := r.stage_notify
  cases h with
  | settled hs => exact .settled (hsame.trans hs)
  | reporting hs => exact .reporting (hsame.trans hs)
  | matched hs => exact .matched (hsame.trans hs)
  | checking hs => exact .checking (hsame.trans hs)
  | arming hs => exact .arming (hsame.trans hs)
  | parked hs => exact .parked (hsame.trans hs)

end Retrieval

namespace Service

variable {α : Type} {s t s₀ : Service α} {action : Action α} {actions : List (Action α)}
  {sent : List Stamped} {i : Nat} {r : Retrieval α} {g : Generation} {a : Attempt α}

/-! ## Storing and waking are two steps -/

theorem getElem?_notify (hr : s.call? i = some r) :
    s.board.notify.retrievals[i]? = some r.notify := by
  have hr' : s.board.retrievals[i]? = some r := hr
  simp [Board.notify, hr']

/-- An attempt that has stored its artifact can wake the calls. -/
theorem exists_notify (ha : s.attempt? g = some a) {succeeded : Bool}
    (hs : a.stage = .stored succeeded) :
    ∃ t sent, s.step? (.finish g) = some (t, sent) ∧
      ∀ i r, s.call? i = some r → t.call? i = some r.notify := by
  have hnext : a.next? s.nextSeq s.slot =
      some { attempt := { a with stage := .concluding (.published succeeded) }
             slot := s.slot, notifies := true } := by
    simp [Attempt.next?, hs]
  have hfinish : s.step? (.finish g) = (s.attempt? g).bind s.finish? := rfl
  rw [ha, Option.bind_some, finish?, hnext] at hfinish
  exact ⟨_, _, hfinish, fun i r hr => getElem?_notify hr⟩

/-- An attempt that has stored its artifact stays there until it wakes the calls. -/
theorem Step.stored_or_notify (h : Step s action t sent) (ha : s.attempt? g = some a)
    {succeeded : Bool} (hs : a.stage = .stored succeeded) :
    (∃ a', t.attempt? g = some a' ∧ a'.stage = .stored succeeded) ∨
      ∀ i r, s.call? i = some r → t.call? i = some r.notify := by
  rcases h.own_or_touch ha with ⟨a', hown, -⟩ | ⟨a', ha', htouch, -⟩
  · cases hown with
    | take hq | cancelItself hq | answer hq => cases hs.symm.trans hq
    | @move move hmove =>
      have hboard := s.board_afterMove a move
      cases Attempt.MoveStep.of_next? hmove with
      | notify _ =>
        refine .inr fun i r hr => ?_
        rw [call?, hboard]
        exact getElem?_notify hr
      | _ => simp_all
  · exact .inl ⟨a', ha', htouch.kept.2.2.2.trans hs⟩

/-- An attempt whose artifact the slot takes has it stored, and has not woken the calls yet. -/
theorem Step.stored_of_accepted (h : Step s action t sent) (hn : Numbered s)
    {artifact : Artifact α} (hacc : s.accepted? action = some artifact) :
    ∃ a, t.attempt? artifact.generation = some a ∧ a.stage = .stored artifact.succeeded := by
  obtain ⟨k, a, haction, ha, hs, hv⟩ := accepted?_eq_some_iff.1 hacc
  obtain rfl : artifact.generation = k := (hn.offered ha hs).1
  rcases h.own_or_touch ha with ⟨a', hown, ha'⟩ | ⟨-, -, -, hactor⟩
  · refine ⟨a', ha', ?_⟩
    cases hown with
    | take hq | cancelItself hq | answer hq => cases hs.symm.trans hq
    | move hmove =>
      cases Attempt.MoveStep.of_next? hmove with
      | accepted hs' _ =>
        cases hs.symm.trans hs'
        rfl
      | refused hs' hrefused =>
        cases hs.symm.trans hs'
        exact absurd hv hrefused
      | _ => simp_all
  · exact absurd (haction ▸ rfl) hactor

/-! ## What happened since a call looked -/

/-- What matters to a call: that it looks at the slot, and that the slot takes an artifact. -/
inductive Notice (α : Type) where
  /-- The call looks at the slot and finds this. -/
  | looked (found : Option (Artifact α))
  | stored (artifact : Artifact α)

/-- What happens in an action that matters to the `i`-th call. -/
def notice? (i : Nat) (s : Service α) : Action α → Option (Notice α)
  | .ask j => if j = i then
      (s.call? i).bind fun r =>
        match r.stage with
        | .checking => some (.looked (s.slot.find? r.code))
        | _ => none
    else none
  | action => (s.accepted? action).map .stored

/-- The call that wants `code` looked at the slot in vain, and all that the slot has taken since
then is that of attempts which have still to wake the calls. -/
def Untold (s : Service α) (code : String) (notices : List (Notice α)) : Prop :=
  ∃ (earlier : List (Notice α)) (since : List (Artifact α)) (held : Option (Artifact α)),
    notices = earlier ++ .looked none :: since.map .stored ∧
    held.filter (·.isFor code) = none ∧ s.slot.latest = since.getLast?.or held ∧
    ∀ b ∈ since, ∃ a, s.attempt? b.generation = some a ∧ a.stage = .stored b.succeeded

/-- A call that has looked in vain does not look again before it is woken. -/
theorem notice?_of_hasMissed (hr : s.call? i = some r) (hmissed : r.hasMissed = true) :
    s.notice? i action = (s.accepted? action).map .stored := by
  cases action with
  | ask j =>
    by_cases hj : j = i
    · have hstage : r.stage ≠ .checking := fun hs => by
        simp [Retrieval.hasMissed, hs] at hmissed
      simp [notice?, hj, hr, accepted?]
    · simp [notice?, hj, accepted?]
  | _ => rfl

/-- As long as a call sleeps and nobody wakes it, all that is stored is untold. -/
theorem Untold.step {code : String} {notices : List (Notice α)} (h : s.Untold code notices)
    (hn : Numbered s) (hstep : Step s action t sent)
    (hquiet : ∀ g a succeeded, s.attempt? g = some a → a.stage = .stored succeeded →
      ∃ a', t.attempt? g = some a' ∧ a'.stage = .stored succeeded) :
    t.Untold code (notices ++ ((s.accepted? action).map .stored).toList) := by
  obtain ⟨earlier, since, held, rfl, hheld, hlatest, hstored⟩ := h
  have hslot := hstep.slot.1
  have hkept : ∀ b ∈ since, ∃ a, t.attempt? b.generation = some a ∧
      a.stage = .stored b.succeeded := by
    intro b hb
    obtain ⟨a, ha, hs⟩ := hstored b hb
    exact hquiet b.generation a b.succeeded ha hs
  cases hacc : s.accepted? action with
  | none =>
    rw [hacc, Option.none_or] at hslot
    exact ⟨earlier, since, held, by simp, hheld, hslot.trans hlatest, hkept⟩
  | some artifact =>
    rw [hacc, Option.some_or] at hslot
    refine ⟨earlier, since ++ [artifact], held, by simp, hheld, by simp [hslot], ?_⟩
    intro b hb
    rcases List.mem_append.1 hb with hold | hnew
    · exact hkept b hold
    · cases List.mem_singleton.1 hnew
      exact hstep.stored_of_accepted hn hacc

/-- In every step of the service, a call that is left unwoken has nothing but untold artifacts. -/
theorem untold_step {notices : List (Notice α)} (hn : Numbered s) (hstep : Step s action t sent)
    (ih : ∀ r, s.call? i = some r → r.hasMissed = true → r.notified = false →
      s.Untold r.code notices)
    {r' : Retrieval α} (hr' : t.call? i = some r') (hmissed : r'.hasMissed = true)
    (hnot : r'.notified = false) :
    t.Untold r'.code (notices ++ (s.notice? i action).toList) := by
  cases hr : s.call? i with
  | none =>
    have harming := hstep.call?_of_none hr hr'
    simp [Retrieval.hasMissed, harming] at hmissed
  | some r =>
    -- a call that had missed before was not woken in this step, so that nobody woke any call
    have goes_on (hold : r.hasMissed = true) (hcode : r'.code = r.code)
        (hsame : r'.notified = r.notified) :
        t.Untold r'.code (notices ++ (s.notice? i action).toList) := by
      rw [notice?_of_hasMissed hr hold, hcode]
      refine (ih r hr hold (hsame ▸ hnot)).step hn hstep fun g a succeeded ha hs => ?_
      rcases hstep.stored_or_notify ha hs with hstays | hnotified
      · exact hstays
      · have hwoken := hnotified i r hr
        cases hr'.symm.trans hwoken
        exact absurd (hnot.symm.trans (Retrieval.notified_notify hold)) Bool.false_ne_true
    cases hstep.callStep hr with
    | still hsame _ _ | publish _ hsame _ _ _ =>
      cases hr'.symm.trans hsame
      exact goes_on hmissed rfl rfl
    | tick _ ht =>
      subst ht
      cases hr'.symm.trans hr
      exact goes_on hmissed rfl rfl
    | notify hnotified _ =>
      cases hr'.symm.trans hnotified
      have hold : r.hasMissed = true := by
        unfold Retrieval.hasMissed at hmissed ⊢
        rwa [Retrieval.stage_notify] at hmissed
      exact absurd (hnot.symm.trans (Retrieval.notified_notify hold)) Bool.false_ne_true
    | move haction hmove hmoved hstill =>
      cases hr'.symm.trans hmoved
      subst haction
      cases hmove with
      | miss hs hfound =>
        refine ⟨notices, [], s.slot.latest, ?_, hfound, hstill.latest, by simp⟩
        simp [notice?, hr, hs, hfound]
      | park hs _ | parkUntil hs _ _ => exact goes_on (by simp [Retrieval.hasMissed, hs]) rfl rfl
      | _ => cases hmissed
    | wake _ _ hput _ | abandon _ hput _ =>
      cases hr'.symm.trans hput
      cases hmissed

/-- Whatever a call finds in the slot when it has not been woken since it looked in vain, its
attempt has still to wake the calls. -/
theorem untold_of_steps? {config : Config} {sink : MessageSink} {text : String}
    (hsteps : (ofConfig config sink text : Service α).steps? actions = some (s, sent))
    (hr : s.call? i = some r) (hmissed : r.hasMissed = true) (hnot : r.notified = false) :
    s.Untold r.code ((ofConfig config sink text).observe (notice? i) actions) := by
  refine observe_induct (motive := fun u seen => ∀ r, u.call? i = some r → r.hasMissed = true →
      r.notified = false → u.Untold r.code seen)
    (fun {u v a told seen} hu _ hone ih r' hr' => ?_) hsteps (fun r hr => ?_) r hr hmissed hnot
  · have hn : Numbered u := Reachable.numbered ⟨config, sink, text, hu⟩
    exact untold_step hn (Step.of_step? hone) ih hr'
  · cases hr

/-- If the slot holds what the call wants, it was stored since the call looked. -/
theorem Untold.mem {code : String} {notices : List (Notice α)} (h : s.Untold code notices)
    {artifact : Artifact α} (hfound : s.slot.find? code = some artifact) :
    ∃ (earlier : List (Notice α)) (since : List (Artifact α)),
      notices = earlier ++ .looked none :: since.map .stored ∧ artifact ∈ since ∧
      ∀ b ∈ since, ∃ a, s.attempt? b.generation = some a ∧ a.stage = .stored b.succeeded := by
  obtain ⟨earlier, since, held, hnotices, hheld, hlatest, hstored⟩ := h
  refine ⟨earlier, since, hnotices, ?_, hstored⟩
  cases hlast : since.getLast? with
  | some last =>
    rw [hlast, Option.some_or] at hlatest
    rw [(Slot.find?_eq_some_iff.1 hfound).1] at hlatest
    cases hlatest
    exact List.mem_of_getLast? hlast
  | none =>
    rw [hlast, Option.none_or] at hlatest
    rw [Slot.find?, hlatest, hheld] at hfound
    cases hfound

/-! ## From the wakeup to the result -/

/-- Is the action a step of the `i`-th call? -/
def isOwn (i : Nat) : Action α → Bool
  | .ask j | .wake j => j = i
  | _ => false

/-- Does the slot hold the artifact when the action happens, and is the `i`-th call not given up? -/
def Holds (i : Nat) (artifact : Artifact α) (s : Service α) (action : Action α) : Prop :=
  s.slot.latest = some artifact ∧ action ≠ .abandon i

theorem Step.of_ask (h : Step s (.ask i) t sent) (hr : s.call? i = some r) :
    ∃ move, r.MoveStep s.now s.slot s.board.poll move ∧ t.call? i = some move.retrieval := by
  cases h with
  | ask hask | report hask =>
    obtain ⟨r', move, hr', hmove, -, -, hput⟩ := Board.of_ask? hask
    obtain rfl : r' = r := Option.some.inj (hr'.symm.trans hr)
    exact ⟨move, hmove, (hput i).trans (if_pos rfl)⟩
  | run _ h => cases h
  | attempt _ h => cases h

theorem Step.of_wake (h : Step s (.wake i) t sent) (hr : s.call? i = some r) :
    r.canWake s.now = true ∧ t.call? i = some { r with stage := .arming } := by
  cases h with
  | wake hwake =>
    obtain ⟨r', hr', hcan, rfl⟩ := Board.of_wake? hwake
    obtain rfl : r' = r := Option.some.inj (hr'.symm.trans hr)
    exact ⟨hcan, (Board.retrievals_put hr' _ i).trans (if_pos rfl)⟩
  | run _ h => cases h
  | attempt _ h => cases h

/-- While the slot holds the artifact, a call on its way to it goes on by steps of its own only. -/
theorem returning_step {artifact : Artifact α} {n : Nat} (h : r.Returning artifact n)
    (hr : s.call? i = some r) (hsource : artifact.source = r.code)
    (hholds : s.Holds i artifact action) (hstep : Step s action t sent) :
    ∃ r' m, t.call? i = some r' ∧ r'.code = r.code ∧ r'.Returning artifact m ∧
      n = m + if isOwn i action then 1 else 0 := by
  cases hown : isOwn i action with
  | true =>
    cases action with
    | ask j =>
      obtain rfl : j = i := by simpa [isOwn] using hown
      obtain ⟨move, hmove, hr'⟩ := hstep.of_ask hr
      have hfound : s.slot.find? r.code = some artifact :=
        Slot.find?_eq_some_iff.2 ⟨hholds.1, hsource⟩
      obtain ⟨m, hm, hn⟩ := h.move hfound hmove
      exact ⟨_, m, hr', hmove.kept.1, hm, by simpa using hn⟩
    | wake j =>
      obtain rfl : j = i := by simpa [isOwn] using hown
      obtain ⟨hcan, hr'⟩ := hstep.of_wake hr
      exact ⟨_, 4, hr', rfl, .arming rfl, by simp [h.wake hcan]⟩
    | _ => cases hown
  | false =>
    have same (hr' : t.call? i = some r) : ∃ r' m, t.call? i = some r' ∧ r'.code = r.code ∧
        r'.Returning artifact m ∧ n = m + if false = true then 1 else 0 :=
      ⟨r, n, hr', rfl, h, by simp⟩
    cases hstep.callStep hr with
    | still hsame _ _ | publish _ hsame _ _ _ => exact same hsame
    | tick _ ht => subst ht; exact same hr
    | notify hnotified _ =>
      exact ⟨_, n, hnotified, (SameCall.notify r).code, h.notify, by simp⟩
    | move haction _ _ _ | wake haction _ _ _ => simp [haction, isOwn] at hown
    | abandon haction _ _ => exact absurd haction hholds.2

theorem returning_steps {artifact : Artifact α} {n : Nat} (h : r.Returning artifact n)
    (hr : s.call? i = some r) (hsource : artifact.source = r.code)
    (hsteps : s.steps? actions = some (t, sent)) (halong : s.Along (Holds i artifact) actions) :
    ∃ r' m, t.call? i = some r' ∧ r'.code = r.code ∧ r'.Returning artifact m ∧
      n = m + actions.countP (isOwn i) := by
  induction actions generalizing s r n sent with
  | nil =>
    cases hsteps
    exact ⟨r, n, hr, rfl, h, rfl⟩
  | cons a rest ih =>
    obtain ⟨u, told, more, hone, hrest⟩ := steps?_cons_eq_some hsteps
    obtain ⟨r₁, m, hr₁, hcode, hm, hn⟩ :=
      returning_step h hr hsource halong.1 (Step.of_step? hone)
    obtain ⟨r₂, k, hr₂, hcode', hk, hm'⟩ :=
      ih hm hr₁ (hsource.trans hcode.symm) hrest (halong.2 u told hone)
    refine ⟨r₂, k, hr₂, hcode'.trans hcode, hk, ?_⟩
    rw [List.countP_cons]
    omega

/-- A call that is on its way to an artifact can go on, or it sleeps and was not woken. -/
theorem exists_own_of_returning (hs : s.Reachable) {artifact : Artifact α} {n : Nat}
    (h : r.Returning artifact (n + 1)) (hr : s.call? i = some r) :
    (∃ action t sent, isOwn i action = true ∧ s.step? action = some (t, sent)) ∨
      r.isParked = true ∧ r.notified = false := by
  cases hrest : r.isResting s.now with
  | false =>
    obtain ⟨t, action, sent, -, haction, hstep, -⟩ :=
      exists_own_step hr hs.one_le_ticks_poll hrest
    refine .inl ⟨action, t, sent, ?_, hstep⟩
    rcases haction with rfl | rfl <;> simp [isOwn]
  | true =>
    simp only [Retrieval.isResting, Bool.and_eq_true] at hrest
    refine .inr ?_
    cases h with
    | parked hs => simpa [Retrieval.isParked, Retrieval.isAsleep, hs] using hrest.1
    | reporting hs | matched hs | checking hs | arming hs =>
      simp [Retrieval.isAsleep, hs] at hrest

/-- If nobody has woken a call that sleeps while the slot holds what it wants, the attempt of the
artifact can do so at once, and then the call can wake up. -/
theorem exists_wake_of_untold {config : Config} {sink : MessageSink} {text : String}
    {artifact : Artifact α}
    (hsteps : (ofConfig config sink text : Service α).steps? actions = some (s, sent))
    (hr : s.call? i = some r) (hparked : r.isParked = true) (hnot : r.notified = false)
    (hfound : s.slot.find? r.code = some artifact) :
    ∃ t told u more, s.step? (.finish artifact.generation) = some (t, told) ∧
      t.step? (.wake i) = some (u, more) := by
  have hmissed := Retrieval.hasMissed_of_isParked hparked
  obtain ⟨-, since, -, hmem, hstored⟩ := (untold_of_steps? hsteps hr hmissed hnot).mem hfound
  obtain ⟨a, ha, hs⟩ := hstored artifact hmem
  obtain ⟨t, told, hfinish, hwoken⟩ := exists_notify ha hs
  obtain ⟨u, more, hwake, -⟩ :=
    exists_wake (hwoken i r hr) (Retrieval.canWake_notify hparked t.now)
  exact ⟨t, told, u, more, hfinish, hwake⟩

/-- The `i`-th call sleeps while the slot holds what it wants. Then it has been woken; or it looked
in vain, the artifact was stored since then, and its attempt has still to wake the calls, like
those of all artifacts stored since. As long as the artifact stays in the slot and the call is not
given up, five steps of the call lead to the result that the artifact gives. Before that the call
can take its next step at once, or it can as soon as the attempt of the artifact has woken the
calls, which it can do at once: nobody waits for the clock. -/
theorem no_wakeup_lost {config : Config} {sink : MessageSink} {text : String}
    {artifact : Artifact α}
    (hsteps : (ofConfig config sink text : Service α).steps? actions = some (s, sent))
    (hr : s.call? i = some r) (hparked : r.isParked = true)
    (hfound : s.slot.find? r.code = some artifact) :
    (r.notified = true ∨ ∃ (earlier : List (Notice α)) (since : List (Artifact α)),
      (ofConfig config sink text).observe (notice? i) actions =
        earlier ++ .looked none :: since.map .stored ∧
      artifact ∈ since ∧
      ∀ b ∈ since, ∃ a, s.attempt? b.generation = some a ∧ a.stage = .stored b.succeeded) ∧
    ∀ later t more, s.steps? later = some (t, more) → s.Along (Holds i artifact) later →
      t.slot.latest = some artifact → ∃ r', t.call? i = some r' ∧
        later.countP (isOwn i) ≤ 5 ∧
        (later.countP (isOwn i) = 5 ↔
          ∃ waited, r'.result? = some (Retrieval.resultOf artifact, waited)) ∧
        (later.countP (isOwn i) < 5 →
          (∃ action u told, isOwn i action = true ∧ t.step? action = some (u, told)) ∨
          ∃ u told v more, t.step? (.finish artifact.generation) = some (u, told) ∧
            u.step? (.wake i) = some (v, more)) := by
  obtain ⟨hlatest, hsource⟩ := Slot.find?_eq_some_iff.1 hfound
  refine ⟨?_, fun later t more hlater halong hkept => ?_⟩
  · cases hnot : r.notified with
    | true => exact .inl rfl
    | false =>
      have hmissed := Retrieval.hasMissed_of_isParked hparked
      exact .inr ((untold_of_steps? hsteps hr hmissed hnot).mem hfound)
  · obtain ⟨wake, hs⟩ := Retrieval.exists_stage_of_isParked hparked
    obtain ⟨r', m, hr', hcode, hm, hcount⟩ :=
      returning_steps (.parked hs) hr hsource hlater halong
    have hall := steps?_append_eq_some hsteps hlater
    refine ⟨r', hr', by omega, ?_, fun hless => ?_⟩
    · rw [← hm.eq_zero_iff]
      omega
    · obtain ⟨k, rfl⟩ : ∃ k, m = k + 1 := ⟨m - 1, by omega⟩
      rcases exists_own_of_returning ⟨config, sink, text, _, _, hall⟩ hm hr' with
        hown | ⟨hparked', hnot⟩
      · exact .inl hown
      · have hfound' : t.slot.find? r'.code = some artifact :=
          Slot.find?_eq_some_iff.2 ⟨hkept, hsource.trans hcode.symm⟩
        exact .inr (exists_wake_of_untold hall hr' hparked' hnot hfound')

/-- A call for "a" sleeps when the artifact is stored. -/
def sleepingCall : List (Action Nat) :=
  [Action.start, Action.tick, Action.poll 1] ++ List.replicate 6 (Action.proceed 1) ++
    [Action.take 1, Action.retrieve "caller" "a" (.ofMillis 100), Action.ask 0, Action.ask 0,
      Action.ask 0, Action.compiled 1 (.value 5), Action.finish 1]

/-- The attempt wakes the calls, and the call takes five steps. -/
def wokenCall : List (Action Nat) :=
  [Action.finish 1, Action.wake 0] ++ List.replicate 4 (Action.ask 0)

theorem no_wakeup_lost_untold : ∃ s t : Service Nat, ∃ sent more r,
    (ofConfig {} {} "a").steps? sleepingCall = some (s, sent) ∧
    s.call? 0 = some r ∧ r.isParked = true ∧ r.notified = false ∧
    s.slot.find? r.code = some (.compiled "a" 1 5) ∧
    (∃ a, s.attempt? 1 = some a ∧ a.stage = .stored true) ∧
    s.steps? wokenCall = some (t, more) ∧
    ∃ r' waited, t.call? 0 = some r' ∧ r'.result? = some (.ok (.compiled "a" 1 5), waited) := by
  -- both parts are run in one go; what is needed of the states is read off there
  have hrun : ((ofConfig {} {} "a").steps? sleepingCall).bind
      (fun (s, _) => (s.call? 0).bind fun r => (s.steps? wokenCall).map fun (t, _) =>
        (r.isParked, r.notified, s.slot.find? r.code, t.slot.latest,
          s.observe (fun u a => some (u.slot.latest, a)) wokenCall)) =
      some (true, false, some (.compiled "a" 1 5), some (.compiled "a" 1 5),
        wokenCall.map (some (.compiled "a" 1 5), ·)) := by
    with_unfolding_all exact rfl
  obtain ⟨⟨s, sent⟩, hsteps, hrest⟩ := Option.bind_eq_some_iff.1 hrun
  obtain ⟨r, hr, hrest⟩ := Option.bind_eq_some_iff.1 hrest
  obtain ⟨⟨t, more⟩, hlater, hseen⟩ := Option.map_eq_some_iff.1 hrest
  obtain ⟨hparked, hnot, hfound, hkept, hnotes⟩ : _ ∧ _ ∧ _ ∧ _ ∧ _ := by
    simpa only [Prod.mk.injEq] using hseen
  have halong : s.Along (Holds 0 (.compiled "a" 1 5)) wokenCall := by
    refine along_of_observe (fun u a => (u.slot.latest, a))
      (Q := fun b => b.1 = some (.compiled "a" 1 5) ∧ b.2 ≠ .abandon 0) hlater fun b hb => ?_
    rw [hnotes] at hb
    obtain ⟨a, ha, rfl⟩ := List.mem_map.1 hb
    refine ⟨rfl, ?_⟩
    rintro rfl
    simp [wokenCall] at ha
  obtain ⟨huntold, hreturns⟩ := no_wakeup_lost hsteps hr hparked hfound
  obtain ⟨r', hr', -, hresult, -⟩ := hreturns _ t more hlater halong hkept
  obtain ⟨waited, hwaited⟩ := hresult.1 (by decide)
  rcases huntold with hyes | ⟨-, since, -, hmem, hstored⟩
  · exact absurd (hnot.symm.trans hyes) Bool.false_ne_true
  · exact ⟨s, t, sent, more, r, hsteps, hr, hparked, hnot, hfound, hstored _ hmem, hlater, r',
      waited, hr', hwaited⟩

end Service

end CompileWatch
