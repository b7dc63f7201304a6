import CompileWatch.Proofs.Histories
import CompileWatch.Proofs.Retrievals

/-!
# When and how a retrieval settles

A retrieval goes by notifications, by a polling timer and by its deadline. Where it is given the
time to run whenever it is woken, all that comes to this: it settles on the first artifact of its
text that the slot held when the call began or takes before the deadline, at the tick at which the
slot takes it, and fails at the deadline if there is none. `settlement?` says so without the polling
timer.
-/
namespace CompileWatch

/-- An artifact that the slot took, and when. -/
structure Publication (α : Type) where
  tick : Nat
  artifact : Artifact α
  /-- Had the call that looks at it not settled yet? -/
  underWay : Bool

/-- Did the slot take the artifact before the deadline? -/
def Publication.isBefore {α : Type} (deadline? : Option Nat) (p : Publication α) : Bool :=
  deadline?.all (p.tick < ·)

namespace Retrieval

variable {α : Type}

/-- The first artifact of the text among the one that the slot held when the call began and those
that it took since; with the tick from which on it was there. -/
def firstMatch (code : String) (begun : Nat) (held : Option (Artifact α))
    (taken : List (Publication α)) : Option (Nat × Artifact α) :=
  ((held.map (begun, ·)).toList ++ taken.map fun p => (p.tick, p.artifact)).find? (·.2.isFor code)

/-- When and how a call has settled by the tick `now`, if it has: on the first match, or with a
failure at the deadline. -/
def settlement? (code : String) (timeout : Span) (begun now : Nat)
    (first : Option (Nat × Artifact α)) : Option (Nat × RetrievalResult α) :=
  match first with
  | some (tick, a) => some (tick, resultOf a)
  | none =>
    (deadline? begun timeout).bind fun deadline =>
      if deadline ≤ now then some (deadline, .error (.timedOut code timeout)) else none

/-- Does the call sleep without having been woken, or is it over? -/
def isAsleep (r : Retrieval α) : Bool :=
  match r.stage with
  | .parked _ => !r.notified
  | .settled .. | .abandoned => true
  | _ => false

/-- Does the call sleep with its timer not due, or is it over? -/
def isResting (now : Nat) (r : Retrieval α) : Bool := r.isAsleep && !r.canWake now

/-- At most so many steps of its own are left to a retrieval until it rests. A notification that it
has not heard yet costs it one more round. -/
def effort (now : Nat) (r : Retrieval α) : Nat :=
  match r.stage with
  | .settled .. | .abandoned => 0
  | .reporting .. => 1
  | .matched .. | .overdue _ => 2
  | .testing => if r.notified then 7 else 3
  | .checking => if r.notified then 8 else 4
  | .arming => 5
  | .parked _ => if r.canWake now then 6 else 0

theorem firstMatch_append (code : String) (begun : Nat) (held : Option (Artifact α))
    (first second : List (Publication α)) :
    firstMatch code begun held (first ++ second) =
      (firstMatch code begun held first).or (firstMatch code begun none second) := by
  unfold firstMatch
  rw [List.map_append, ← List.append_assoc, List.find?_append]
  rfl

theorem firstMatch_singleton (code : String) (begun : Nat) (p : Publication α) :
    firstMatch code begun none [p] =
      if p.artifact.isFor code = true then some (p.tick, p.artifact) else none := by
  by_cases hfor : p.artifact.isFor code = true <;> simp [firstMatch, hfor]

/-- Only artifacts of the text count. -/
theorem firstMatch_filter {code : String} {begun : Nat} {held : Option (Artifact α)}
    {keep : Publication α → Bool} {taken : List (Publication α)}
    (h : ∀ p ∈ taken, p.artifact.isFor code = true → keep p = true) :
    firstMatch code begun held (taken.filter keep) = firstMatch code begun held taken := by
  unfold firstMatch
  rw [List.find?_append, List.find?_append]
  congr 1
  induction taken with
  | nil => rfl
  | cons p rest ih =>
    have hrest := ih fun q hq => h q (List.mem_cons_of_mem p hq)
    by_cases hfor : p.artifact.isFor code = true
    · simp [h p List.mem_cons_self hfor, hfor]
    · by_cases hkeep : keep p = true
      · simpa [hkeep, hfor] using hrest
      · simpa [hkeep, hfor] using hrest

/-- Without a match a call settles at its deadline only. -/
theorem deadline?_of_settlement? {code : String} {timeout : Span} {begun now tick : Nat}
    {result : RetrievalResult α}
    (h : settlement? code timeout begun now none = some (tick, result)) :
    deadline? begun timeout = some tick := by
  obtain ⟨deadline, hd, hx⟩ := Option.bind_eq_some_iff.1 h
  simp only [Option.ite_none_right_eq_some, Option.some.injEq, Prod.mk.injEq] at hx
  rw [hd, hx.2.1]

/-- What has settled stays so. -/
theorem settlement?_mono {code : String} {timeout : Span} {begun now later : Nat}
    {first : Option (Nat × Artifact α)} {x : Nat × RetrievalResult α}
    (h : settlement? code timeout begun now first = some x) (hle : now ≤ later) :
    settlement? code timeout begun later first = some x := by
  cases first with
  | some p => exact h
  | none =>
    obtain ⟨deadline, hd, hx⟩ := Option.bind_eq_some_iff.1 h
    simp only [Option.ite_none_right_eq_some] at hx
    refine Option.bind_eq_some_iff.2 ⟨deadline, hd, ?_⟩
    rw [if_pos (Nat.le_trans hx.1 hle), hx.2]

end Retrieval

namespace Service

variable {α : Type} {s t : Service α} {action : Action α} {sent : List Stamped} {i : Nat}

/-! ## Histories in which a retrieval is given the time to run -/

/-- Is nothing left to do at this tick for the `i`-th retrieval and for those who publish? -/
def Quiet (i : Nat) (s : Service α) : Prop :=
  ¬ s.Publishing ∧ ∀ r, s.call? i = some r → r.isResting s.now = true

/-- Does an action leave the `i`-th retrieval the time to run? The slot takes nothing while the
retrieval is awake or has not been told of what the slot took before, and the clock goes on only
when all is quiet. The retrieval is not given up. -/
def Prompt (i : Nat) (s : Service α) (action : Action α) : Prop :=
  (s.accepted? action ≠ none →
    ¬ s.Publishing ∧ ∀ r, s.call? i = some r → r.isAsleep = true) ∧
  (action = .tick → s.Quiet i) ∧ action ≠ .abandon i

/-- When and how the `i`-th retrieval has settled. -/
def settled? (i : Nat) (s : Service α) : Option (Nat × RetrievalResult α) :=
  (s.call? i).bind fun r => r.result?.map fun (result, waited) => (r.begun + waited, result)

/-- What the slot takes in an action, as the `i`-th retrieval sees it. -/
def publication? (i : Nat) (s : Service α) (action : Action α) : Option (Publication α) :=
  (s.accepted? action).map fun artifact => ⟨s.now, artifact, (s.settled? i).isNone⟩

/-! ## Where a retrieval stands -/

/-- What a waiting retrieval knows: the slot holds the first match, if there is one, and it has come
at this very tick, which is not past the deadline. -/
structure Current (s : Service α) (r : Retrieval α) (first : Option (Nat × Artifact α)) : Prop where
  found : s.slot.find? r.code = first.map Prod.snd
  at_now {p : Nat × Artifact α} : first = some p → p.1 = s.now
  in_time {deadline : Nat} : Retrieval.deadline? r.begun r.timeout = some deadline →
    s.now ≤ deadline

/-- Where a retrieval stands, by its stage, when `first` is the first match so far. -/
inductive Standing (s : Service α) (r : Retrieval α) (first : Option (Nat × Artifact α)) : Prop
  | looking : r.stage = .arming ∨ r.stage = .checking → Current s r first → Standing s r first
  | testing : r.stage = .testing → Current s r first → first = none → Standing s r first
  | parked {wake : Nat} : r.stage = .parked wake → Current s r first → s.now ≤ wake →
      (∀ deadline, Retrieval.deadline? r.begun r.timeout = some deadline → wake ≤ deadline) →
      (first = none ∨ r.notified = true ∨ s.Publishing) → Standing s r first
  | matched {a : Artifact α} {waited : Nat} : r.stage = .matched a waited →
      first = some (s.now, a) → r.begun + waited = s.now → Standing s r first
  | overdue {waited : Nat} : r.stage = .overdue waited → first = none →
      Retrieval.deadline? r.begun r.timeout = some s.now → r.begun + waited = s.now →
      Standing s r first
  | reporting {result : RetrievalResult α} {waited : Nat} {event : Event} :
      r.stage = .reporting result waited event → r.begun + waited = s.now →
      Retrieval.settlement? r.code r.timeout r.begun s.now first = some (s.now, result) →
      Standing s r first
  | settled {result : RetrievalResult α} {waited : Nat} : r.stage = .settled result waited →
      r.begun + waited ≤ s.now →
      Retrieval.settlement? r.code r.timeout r.begun s.now first =
        some (r.begun + waited, result) → Standing s r first

theorem Current.still {r : Retrieval α} {first : Option (Nat × Artifact α)}
    (h : Current s r first) (hstill : Still s action t) : Current t r first where
  found := by
    have hfind := h.found
    unfold Slot.find? at hfind ⊢
    rw [hstill.latest, hfind]
  at_now hp := (h.at_now hp).trans hstill.now.symm
  in_time hd := hstill.now ▸ h.in_time hd

/-- A retrieval stands where it stood while the clock and what the slot holds stay the same; if it
sleeps, it has been notified or its notification is still to come. -/
theorem Standing.still {r : Retrieval α} {first : Option (Nat × Artifact α)}
    (h : Standing s r first) (hstill : Still s action t)
    (hp : r.isParked = true → r.notified = true ∨ (s.Publishing → t.Publishing)) :
    Standing t r first := by
  have hnow := hstill.now
  cases h with
  | looking hs hc => exact .looking hs (hc.still hstill)
  | testing hs hc hf => exact .testing hs (hc.still hstill) hf
  | parked hs hc hwake hd hf =>
    refine .parked hs (hc.still hstill) (hnow ▸ hwake) hd ?_
    rcases hp (by simp [Retrieval.isParked, hs]) with hnotified | hp
    · exact .inr (.inl hnotified)
    · exact hf.imp id (Or.imp id hp)
  | matched hs hf hw => exact .matched hs (hnow ▸ hf) (hnow ▸ hw)
  | overdue hs hf hd hw => exact .overdue hs hf (hnow ▸ hd) (hnow ▸ hw)
  | reporting hs hw hset => exact .reporting hs (hnow ▸ hw) (hnow ▸ hset)
  | settled hs hw hset => exact .settled hs (hnow ▸ hw) (hnow ▸ hset)

theorem Standing.notified {r : Retrieval α} {first : Option (Nat × Artifact α)}
    (h : Standing s r first) : Standing s { r with notified := true } first := by
  cases h with
  | looking hs hc => exact .looking hs ⟨hc.found, hc.at_now, hc.in_time⟩
  | testing hs hc hf => exact .testing hs ⟨hc.found, hc.at_now, hc.in_time⟩ hf
  | parked hs hc hwake hd _ =>
    exact .parked hs ⟨hc.found, hc.at_now, hc.in_time⟩ hwake hd (.inr (.inl rfl))
  | matched hs hf hw => exact .matched hs hf hw
  | overdue hs hf hd hw => exact .overdue hs hf hd hw
  | reporting hs hw hset => exact .reporting hs hw hset
  | settled hs hw hset => exact .settled hs hw hset

/-- A notification wakes a retrieval that sleeps. -/
theorem Standing.notify {r : Retrieval α} {first : Option (Nat × Artifact α)}
    (h : Standing s r first) (hstill : Still s action t) : Standing t r.notify first := by
  unfold Retrieval.notify
  split
  · exact h.notified.still hstill fun _ => .inl rfl
  · next harmed =>
    refine h.still hstill fun hparked => absurd ?_ harmed
    unfold Retrieval.isParked at hparked
    split at hparked
    · next hs => simp [Retrieval.isArmed, hs]
    · cases hparked

/-- A retrieval that has settled did so on the first match, or at the deadline without one. -/
theorem Standing.of_result? {r : Retrieval α} {first : Option (Nat × Artifact α)}
    (h : Standing s r first) {result : RetrievalResult α} {waited : Nat}
    (hresult : r.result? = some (result, waited)) :
    r.begun + waited ≤ s.now ∧
      Retrieval.settlement? r.code r.timeout r.begun s.now first =
        some (r.begun + waited, result) := by
  cases h with
  | settled hs hw hset =>
    simp only [Retrieval.result?, hs, Option.some.injEq, Prod.mk.injEq] at hresult
    obtain ⟨rfl, rfl⟩ := hresult
    exact ⟨hw, hset⟩
  | looking hs _ => rcases hs with hs | hs <;> simp [Retrieval.result?, hs] at hresult
  | testing hs _ _ => simp [Retrieval.result?, hs] at hresult
  | parked hs _ _ _ _ => simp [Retrieval.result?, hs] at hresult
  | matched hs _ _ => simp [Retrieval.result?, hs] at hresult
  | overdue hs _ _ _ => simp [Retrieval.result?, hs] at hresult
  | reporting hs _ _ => simp [Retrieval.result?, hs] at hresult

/-- A retrieval that sleeps while nobody publishes has missed nothing, and its timer fires no later
than its deadline; or it has settled. -/
theorem Standing.of_isAsleep {r : Retrieval α} {first : Option (Nat × Artifact α)}
    (h : Standing s r first) (hquiet : ¬ s.Publishing) (hasleep : r.isAsleep = true) :
    (∃ wake, r.stage = .parked wake ∧ r.notified = false ∧ first = none ∧
      s.slot.find? r.code = none ∧ s.now ≤ wake ∧
      ∀ deadline, Retrieval.deadline? r.begun r.timeout = some deadline → wake ≤ deadline) ∨
    ∃ result waited, r.stage = .settled result waited := by
  cases h with
  | @parked wake hs hc hwake hd hf =>
    have hnotified : r.notified = false := by simpa [Retrieval.isAsleep, hs] using hasleep
    have hnone : first = none := by
      rcases hf with hf | hf | hf
      · exact hf
      · rw [hnotified] at hf
        cases hf
      · exact absurd hf hquiet
    subst hnone
    exact .inl ⟨wake, hs, hnotified, rfl, hc.found, hwake, hd⟩
  | settled hs _ _ => exact .inr ⟨_, _, hs⟩
  | looking hs _ => rcases hs with hs | hs <;> simp [Retrieval.isAsleep, hs] at hasleep
  | testing hs _ _ => simp [Retrieval.isAsleep, hs] at hasleep
  | matched hs _ _ => simp [Retrieval.isAsleep, hs] at hasleep
  | overdue hs _ _ _ => simp [Retrieval.isAsleep, hs] at hasleep
  | reporting hs _ _ => simp [Retrieval.isAsleep, hs] at hasleep

/-- The clock goes on only past a retrieval that sleeps with its timer not due, or that has
settled. -/
theorem Standing.tick {r : Retrieval α} {first : Option (Nat × Artifact α)}
    (h : Standing s r first) (hquiet : ¬ s.Publishing) (hrest : r.isResting s.now = true) :
    Standing { s with board := s.board.tick } r first := by
  simp only [Retrieval.isResting, Bool.and_eq_true, Bool.not_eq_true'] at hrest
  obtain ⟨hasleep, hcan⟩ := hrest
  rcases h.of_isAsleep hquiet hasleep with
    ⟨wake, hs, hnotified, rfl, hfound, -, hd⟩ | ⟨result, waited, hs⟩
  · have hlt : s.now < wake := by simpa [Retrieval.canWake, hs, hnotified] using hcan
    refine .parked hs ⟨hfound, nofun, fun hdeadline => ?_⟩ hlt hd (.inl rfl)
    exact Nat.le_trans hlt (hd _ hdeadline)
  · have hresult : r.result? = some (result, waited) := by simp only [Retrieval.result?, hs]
    obtain ⟨hw, hset⟩ := h.of_result? hresult
    exact .settled hs (Nat.le_succ_of_le hw) (Retrieval.settlement?_mono hset (Nat.le_succ _))

/-- What the slot takes finds a retrieval that sleeps and has missed nothing before, or that has
settled. -/
theorem Standing.publish {r : Retrieval α} {first : Option (Nat × Artifact α)}
    {artifact : Artifact α} (h : Standing s r first) (hquiet : ¬ s.Publishing)
    (hasleep : r.isAsleep = true) (hnow : t.now = s.now) (hlatest : t.slot.latest = some artifact)
    (hp : t.Publishing) :
    Standing t r (if r.result?.isNone = true then
      first.or (if artifact.isFor r.code = true then some (s.now, artifact) else none)
      else first) := by
  rcases h.of_isAsleep hquiet hasleep with
    ⟨wake, hs, -, rfl, -, hwake, hd⟩ | ⟨result, waited, hs⟩
  · have hway : r.result?.isNone = true := by simp [Retrieval.result?, hs]
    have hfind : t.slot.find? r.code =
        if artifact.isFor r.code = true then some artifact else none := by
      unfold Slot.find?
      rw [hlatest]
      rfl
    have hin_time {deadline : Nat}
        (hdeadline : Retrieval.deadline? r.begun r.timeout = some deadline) :
        t.now ≤ deadline := by
      rw [hnow]
      exact Nat.le_trans hwake (hd deadline hdeadline)
    rw [if_pos hway, Option.none_or]
    refine .parked hs ⟨?_, ?_, hin_time⟩ (hnow ▸ hwake) hd (.inr (.inr hp))
    · rw [hfind]
      by_cases hfor : artifact.isFor r.code = true <;> simp [hfor]
    · intro p hp
      split at hp
      · cases hp
        exact hnow.symm
      · cases hp
  · have hresult : r.result? = some (result, waited) := by simp only [Retrieval.result?, hs]
    obtain ⟨hw, hset⟩ := h.of_result? hresult
    have hway : ¬ (r.result?.isNone = true) := by simp [hresult]
    rw [if_neg hway]
    exact .settled hs (hnow ▸ hw) (hnow ▸ hset)

/-- A retrieval that wakes up has missed nothing: it looks again. -/
theorem Standing.wake {r : Retrieval α} {first : Option (Nat × Artifact α)}
    (h : Standing s r first) (hcan : r.canWake s.now = true) (hstill : Still s action t) :
    Standing t { r with stage := .arming } first := by
  cases h with
  | parked hs hc _ _ _ =>
    have hc' := hc.still hstill
    exact .looking (.inl rfl) ⟨hc'.found, hc'.at_now, hc'.in_time⟩
  | looking hs _ => rcases hs with hs | hs <;> simp [Retrieval.canWake, hs] at hcan
  | testing hs _ _ => simp [Retrieval.canWake, hs] at hcan
  | matched hs _ _ => simp [Retrieval.canWake, hs] at hcan
  | overdue hs _ _ _ => simp [Retrieval.canWake, hs] at hcan
  | reporting hs _ _ => simp [Retrieval.canWake, hs] at hcan
  | settled hs _ _ => simp [Retrieval.canWake, hs] at hcan

/-- Every step of a retrieval of its own leads to where it has to stand. -/
theorem Standing.move {r : Retrieval α} {first : Option (Nat × Artifact α)}
    {move : Retrieval.Move α} (h : Standing s r first) (hbegun : r.begun ≤ s.now)
    (hmove : r.MoveStep s.now s.slot s.board.poll move) (hstill : Still s action t) :
    Standing t move.retrieval first := by
  have hnow := hstill.now
  have hwaited : r.begun + (s.now - r.begun) = t.now := by
    rw [hnow]
    exact Nat.add_sub_cancel' hbegun
  cases hmove with
  | arm hs =>
    cases h with
    | looking _ hc =>
      have hc' := hc.still hstill
      exact .looking (.inr rfl) ⟨hc'.found, hc'.at_now, hc'.in_time⟩
    | _ => simp_all
  | find hs hfound =>
    cases h with
    | looking _ hc =>
      have hmatch := hc.found
      rw [hfound] at hmatch
      obtain ⟨p, hp, rfl⟩ := Option.map_eq_some_iff.1 hmatch.symm
      refine .matched rfl ?_ hwaited
      rw [hp, hnow, ← hc.at_now hp]
    | _ => simp_all
  | miss hs hmiss =>
    cases h with
    | looking _ hc =>
      have hmatch := hc.found
      rw [hmiss] at hmatch
      have hc' := hc.still hstill
      exact .testing rfl ⟨hc'.found, hc'.at_now, hc'.in_time⟩ (Option.map_eq_none_iff.1 hmatch.symm)
    | _ => simp_all
  | park hs hd =>
    cases h with
    | testing _ hc hf =>
      have hc' := hc.still hstill
      refine .parked rfl ⟨hc'.found, hc'.at_now, hc'.in_time⟩ ?_ ?_ (.inl hf)
      · rw [hnow]; exact Nat.le_add_right _ _
      · intro deadline hdeadline
        rw [hd] at hdeadline
        cases hdeadline
    | _ => simp_all
  | giveUp hs hd hle =>
    cases h with
    | testing _ hc hf =>
      have heq := Nat.le_antisymm hle (hc.in_time hd)
      refine .overdue rfl hf ?_ hwaited
      rw [hnow, ← heq]
      exact hd
    | _ => simp_all
  | parkUntil hs hd hlt =>
    cases h with
    | testing _ hc hf =>
      have hc' := hc.still hstill
      refine .parked rfl ⟨hc'.found, hc'.at_now, hc'.in_time⟩ ?_ ?_ (.inl hf)
      · rw [hnow]
        exact Nat.le_min.2 ⟨Nat.le_add_right _ _, Nat.le_of_lt hlt⟩
      · intro deadline' hdeadline
        rw [hd] at hdeadline
        cases hdeadline
        exact Nat.min_le_right _ _
    | _ => simp_all
  | tellFound hs =>
    cases h with
    | matched hs' hf hw =>
      rw [hs] at hs'
      cases hs'
      refine .reporting rfl (hnow ▸ hw) ?_
      rw [hf, hnow]
      rfl
    | _ => simp_all
  | tellLate hs =>
    cases h with
    | overdue hs' hf hd hw =>
      rw [hs] at hs'
      cases hs'
      refine .reporting rfl (hnow ▸ hw) ?_
      rw [hf, hnow]
      exact Option.bind_eq_some_iff.2 ⟨_, hd, if_pos (Nat.le_refl _)⟩
    | _ => simp_all
  | settle hs =>
    cases h with
    | reporting hs' hw hset =>
      rw [hs] at hs'
      cases hs'
      refine .settled rfl (Nat.le_of_eq (hw.trans hnow.symm)) ?_
      rw [hnow, hset, hw]
    | _ => simp_all

/-- What is known of a retrieval, when the slot held `held` as it was called and has taken `taken`
since. -/
structure Account (s : Service α) (r : Retrieval α) (held : Option (Artifact α))
    (taken : List (Publication α)) : Prop where
  begun_le : r.begun ≤ s.now
  standing : Standing s r
    (Retrieval.firstMatch r.code r.begun held (taken.filter (·.underWay)))
  /-- What the slot takes while the call is under way comes before the rest. -/
  sorted : taken.filter (·.underWay) ++ taken.filter (!·.underWay) = taken
  /-- While the call is under way, the deadline is not over. -/
  early {p : Publication α} : p ∈ taken → r.begun ≤ p.tick ∧
    (p.underWay = true → ∀ deadline,
      Retrieval.deadline? r.begun r.timeout = some deadline → p.tick ≤ deadline)
  /-- What comes when the call is no longer under way comes after it has settled. -/
  late {p : Publication α} : p ∈ taken → p.underWay = false →
    ∃ result waited, r.result? = some (result, waited) ∧ r.begun + waited ≤ p.tick

/-- Has a retrieval kept what it was called with, and its result once it has one? -/
structure SameCall (r r' : Retrieval α) : Prop where
  code : r'.code = r.code
  timeout : r'.timeout = r.timeout
  begun : r'.begun = r.begun
  result {x : RetrievalResult α × Nat} : r.result? = some x → r'.result? = some x

theorem SameCall.refl (r : Retrieval α) : SameCall r r := ⟨rfl, rfl, rfl, id⟩

theorem SameCall.notify (r : Retrieval α) : SameCall r r.notify := by
  unfold Retrieval.notify
  split
  · exact ⟨rfl, rfl, rfl, id⟩
  · exact .refl r

theorem SameCall.move {now : Nat} {slot : Slot α} {poll : Span} {r : Retrieval α}
    {move : Retrieval.Move α} (h : r.MoveStep now slot poll move) : SameCall r move.retrieval where
  code := h.kept.1
  timeout := h.kept.2.1
  begun := h.kept.2.2
  result hresult := by cases h <;> simp_all [Retrieval.result?]

theorem SameCall.wake {now : Nat} {r : Retrieval α} (h : r.canWake now = true) :
    SameCall r { r with stage := .arming } where
  code := rfl
  timeout := rfl
  begun := rfl
  result hresult := by
    unfold Retrieval.result? at hresult
    split at hresult
    · next hs => simp [Retrieval.canWake, hs] at h
    · cases hresult

/-- A step in which the slot takes nothing leaves the account as it is. -/
theorem Account.of_sameCall {r r' : Retrieval α} {held : Option (Artifact α)}
    {taken : List (Publication α)} (h : Account s r held taken) (hsame : SameCall r r')
    (hnow : s.now ≤ t.now)
    (hstanding : Standing t r'
      (Retrieval.firstMatch r.code r.begun held (taken.filter (·.underWay)))) :
    Account t r' held taken where
  begun_le := hsame.begun ▸ Nat.le_trans h.begun_le hnow
  standing := by rw [hsame.code, hsame.begun]; exact hstanding
  sorted := h.sorted
  early hp := by rw [hsame.begun, hsame.timeout]; exact h.early hp
  late hp hway := by
    obtain ⟨result, waited, hresult, hle⟩ := h.late hp hway
    exact ⟨result, waited, hsame.result hresult, hsame.begun ▸ hle⟩

theorem settled?_isNone {r : Retrieval α} (hr : s.call? i = some r) :
    (s.settled? i).isNone = r.result?.isNone := by
  simp [settled?, hr]

/-- What the slot takes is put to the account. -/
theorem Account.publish {r : Retrieval α} {held : Option (Artifact α)}
    {taken : List (Publication α)} {artifact : Artifact α} (h : Account s r held taken)
    (hquiet : ¬ s.Publishing) (hasleep : r.isAsleep = true) (hnow : t.now = s.now)
    (hlatest : t.slot.latest = some artifact) (hp : t.Publishing) :
    Account t r held (taken ++ [⟨s.now, artifact, r.result?.isNone⟩]) where
  begun_le := hnow ▸ h.begun_le
  standing := by
    have hstanding := h.standing.publish hquiet hasleep hnow hlatest hp
    rw [List.filter_append]
    by_cases hway : r.result?.isNone = true
    · rw [if_pos hway] at hstanding
      simpa [hway, Retrieval.firstMatch_append, Retrieval.firstMatch_singleton] using hstanding
    · rw [if_neg hway] at hstanding
      simpa [hway] using hstanding
  sorted := by
    have hsorted := h.sorted
    rw [List.filter_append, List.filter_append]
    cases hresult : r.result? with
    | some x => simp [← List.append_assoc, hsorted]
    | none =>
      -- nothing has come late while the call is under way
      have hnone : taken.filter (!·.underWay) = [] := by
        refine List.filter_eq_nil_iff.2 fun p hmem hway => ?_
        obtain ⟨result, waited, hsome, -⟩ := h.late hmem (by simpa using hway)
        rw [hresult] at hsome
        cases hsome
      rw [hnone, List.append_nil] at hsorted
      simp [hnone, hsorted]
  early {p} hmem := by
    rcases List.mem_append.1 hmem with hmem | hmem
    · exact h.early hmem
    · obtain rfl := List.mem_singleton.1 hmem
      refine ⟨h.begun_le, fun hway deadline hdeadline => ?_⟩
      rcases h.standing.of_isAsleep hquiet hasleep with
        ⟨wake, -, -, -, -, hwake, hd⟩ | ⟨result, waited, hs⟩
      · exact Nat.le_trans hwake (hd deadline hdeadline)
      · simp [Retrieval.result?, hs] at hway
  late {p} hmem hway := by
    rcases List.mem_append.1 hmem with hmem | hmem
    · exact h.late hmem hway
    · obtain rfl := List.mem_singleton.1 hmem
      obtain ⟨⟨result, waited⟩, hresult⟩ := Option.isSome_iff_exists.1 (by simpa using hway)
      exact ⟨result, waited, hresult, (h.standing.of_result? hresult).1⟩

/-- Where the retrieval is given the time to run, every step keeps account of it. -/
theorem Account.step {r : Retrieval α} {held : Option (Artifact α)}
    {taken : List (Publication α)} (h : Account s r held taken) (hr : s.call? i = some r)
    (hprompt : s.Prompt i action) (hstep : Step s action t sent) :
    ∃ r', t.call? i = some r' ∧ SameCall r r' ∧
      Account t r' held (taken ++ (s.publication? i action).toList) := by
  have silent (hacc : s.accepted? action = none) :
      taken ++ (s.publication? i action).toList = taken := by
    simp [publication?, hacc]
  cases hstep.callStep hr with
  | still hr' hstill hp =>
    rw [silent hstill.accepted]
    exact ⟨r, hr', .refl r, h.of_sameCall (.refl r) (Nat.le_of_eq hstill.now.symm)
      (h.standing.still hstill fun _ => .inr hp)⟩
  | tick haction ht =>
    subst haction
    subst ht
    obtain ⟨hquiet, hrest⟩ := hprompt.2.1 rfl
    rw [silent rfl]
    exact ⟨r, hr, .refl r, h.of_sameCall (.refl r) (Nat.le_succ _)
      (h.standing.tick hquiet (hrest r hr))⟩
  | @publish artifact hacc hr' hnow hlatest hp =>
    obtain ⟨hquiet, hasleep⟩ := hprompt.1 (by simp [hacc])
    have hpublication : s.publication? i action =
        some ⟨s.now, artifact, r.result?.isNone⟩ := by
      simp [publication?, hacc, settled?_isNone hr]
    rw [hpublication]
    exact ⟨r, hr', .refl r, h.publish hquiet (hasleep r hr) hnow hlatest hp⟩
  | notify hr' hstill =>
    rw [silent hstill.accepted]
    exact ⟨r.notify, hr', .notify r, h.of_sameCall (.notify r) (Nat.le_of_eq hstill.now.symm)
      (h.standing.notify hstill)⟩
  | @move move haction hmove hr' hstill =>
    rw [silent hstill.accepted]
    exact ⟨_, hr', .move hmove, h.of_sameCall (.move hmove) (Nat.le_of_eq hstill.now.symm)
      (h.standing.move h.begun_le hmove hstill)⟩
  | wake haction hcan hr' hstill =>
    rw [silent hstill.accepted]
    exact ⟨_, hr', .wake hcan, h.of_sameCall (.wake hcan) (Nat.le_of_eq hstill.now.symm)
      (h.standing.wake hcan hstill)⟩
  | abandon haction _ _ => exact absurd haction hprompt.2.2

/-! ## The retrieval comes to rest -/

/-- By some steps of its own the `i`-th retrieval brings the service into another state. -/
inductive ByItself (i : Nat) : Service α → Service α → Prop
  | refl (s : Service α) : ByItself i s s
  | step {s t u : Service α} {action : Action α} {sent : List Stamped} :
      action = .ask i ∨ action = .wake i → s.step? action = some (t, sent) → ByItself i t u →
      ByItself i s u

theorem exists_ask {r : Retrieval α} {move : Retrieval.Move α} (hr : s.call? i = some r)
    (hmove : r.next? s.now s.slot s.board.poll = some move) :
    ∃ t sent, s.step? (.ask i) = some (t, sent) ∧ t.call? i = some move.retrieval ∧
      t.now = s.now ∧ t.board.poll = s.board.poll := by
  have hput : ((s.board.put i move.retrieval).tell move.told).retrievals[i]? =
      some move.retrieval := by
    have hput := Board.retrievals_put hr move.retrieval i
    rw [if_pos rfl] at hput
    cases move.told <;> exact hput
  have hask : s.board.ask? i =
      some ((s.board.put i move.retrieval).tell move.told, move.announced) := by
    have hr' : s.board.retrievals[i]? = some r := hr
    have hmove' : r.next? s.board.now s.board.slot s.board.poll = some move := hmove
    simp [Board.ask?, hr', hmove']
  have hframe : ((s.board.put i move.retrieval).tell move.told).now = s.now ∧
      ((s.board.put i move.retrieval).tell move.told).poll = s.board.poll := by
    cases move.told <;> exact ⟨rfl, rfl⟩
  have hstep : s.step? (.ask i) = s.ask? i := rfl
  rw [ask?, hask] at hstep
  cases hannounced : move.announced with
  | none =>
    rw [hannounced] at hstep
    exact ⟨_, _, hstep, hput, hframe⟩
  | some e =>
    rw [hannounced] at hstep
    exact ⟨_, _, hstep, hput, hframe⟩

theorem exists_wake {r : Retrieval α} (hr : s.call? i = some r)
    (hcan : r.canWake s.now = true) :
    ∃ t sent, s.step? (.wake i) = some (t, sent) ∧
      t.call? i = some { r with stage := .arming } ∧ t.now = s.now ∧
      t.board.poll = s.board.poll := by
  have hput := Board.retrievals_put hr { r with stage := .arming } i
  rw [if_pos rfl] at hput
  have hr' : s.board.retrievals[i]? = some r := hr
  have hcan' : r.canWake s.board.now = true := hcan
  have hwake : s.board.wake? i = some (s.board.put i { r with stage := .arming }) := by
    simp [Board.wake?, hr', hcan']
  have hstep : s.step? (.wake i) = silent ((s.board.wake? i).map fun board => { s with board }) :=
    rfl
  rw [hwake] at hstep
  exact ⟨_, _, hstep, hput, rfl, rfl⟩

/-- Every step of a retrieval of its own leaves it less to do. -/
theorem effort_move {r : Retrieval α} {now : Nat} {slot : Slot α} {poll : Span}
    {move : Retrieval.Move α} (hpoll : 1 ≤ poll.ticks) (h : r.MoveStep now slot poll move) :
    move.retrieval.effort now < r.effort now := by
  -- a retrieval that goes to sleep now is woken at once only by a notification
  have sleeps {wake : Nat} (hs : r.stage = .testing) (hwake : now < wake) :
      ({ r with stage := .parked wake } : Retrieval α).effort now < r.effort now := by
    simp only [Retrieval.effort, Retrieval.canWake, hs, Nat.not_le.2 hwake, decide_false,
      Bool.or_false]
    split <;> decide
  have hpark : now < now + poll.ticks := Nat.lt_add_of_pos_right hpoll
  cases h with
  | arm hs | tellFound hs | tellLate hs | settle hs => simp [Retrieval.effort, hs]
  | find hs _ | miss hs _ | giveUp hs _ _ =>
    simp only [Retrieval.effort, hs]
    split <;> decide
  | park hs _ => exact sleeps hs hpark
  | parkUntil hs _ hlt => exact sleeps hs (Nat.lt_min.2 ⟨hpark, hlt⟩)

theorem effort_wake {r : Retrieval α} {now : Nat} (hcan : r.canWake now = true) :
    ({ r with stage := .arming } : Retrieval α).effort now < r.effort now := by
  have hcan' := hcan
  unfold Retrieval.canWake at hcan'
  split at hcan'
  · next hs => simp [Retrieval.effort, hs, hcan]
  · cases hcan'

/-- A retrieval that does not rest can wake up, or take a step of its own. -/
theorem canWake_or_exists_moveStep {r : Retrieval α} {now : Nat} (slot : Slot α) (poll : Span)
    (hrest : r.isResting now = false) :
    r.canWake now = true ∨ ∃ move, r.MoveStep now slot poll move := by
  cases hs : r.stage with
  | arming => exact .inr ⟨_, .arm hs⟩
  | checking =>
    cases hfound : slot.find? r.code with
    | some a => exact .inr ⟨_, .find hs hfound⟩
    | none => exact .inr ⟨_, .miss hs hfound⟩
  | testing =>
    cases hd : Retrieval.deadline? r.begun r.timeout with
    | none => exact .inr ⟨_, .park hs hd⟩
    | some deadline =>
      rcases Nat.lt_or_ge now deadline with hlt | hle
      · exact .inr ⟨_, .parkUntil hs hd hlt⟩
      · exact .inr ⟨_, .giveUp hs hd hle⟩
  | parked wake =>
    refine .inl ?_
    simp only [Retrieval.isResting, Retrieval.isAsleep, Retrieval.canWake, hs] at hrest ⊢
    cases hn : r.notified <;> simp_all
  | matched a waited => exact .inr ⟨_, .tellFound hs⟩
  | overdue waited => exact .inr ⟨_, .tellLate hs⟩
  | reporting result waited event => exact .inr ⟨_, .settle hs⟩
  | settled result waited =>
    simp [Retrieval.isResting, Retrieval.isAsleep, Retrieval.canWake, hs] at hrest
  | abandoned => simp [Retrieval.isResting, Retrieval.isAsleep, Retrieval.canWake, hs] at hrest

/-- A retrieval that does not rest has a step of its own, and less to do after it. -/
theorem exists_own_step {r : Retrieval α} (hr : s.call? i = some r)
    (hpoll : 1 ≤ s.board.poll.ticks) (hrest : r.isResting s.now = false) :
    ∃ t action sent r', (action = .ask i ∨ action = .wake i) ∧
      s.step? action = some (t, sent) ∧ t.call? i = some r' ∧ t.board.poll = s.board.poll ∧
      r'.effort t.now < r.effort s.now := by
  rcases canWake_or_exists_moveStep s.slot s.board.poll hrest with hcan | ⟨move, hmove⟩
  · obtain ⟨t, sent, hstep, hr', hnow, hsame⟩ := exists_wake hr hcan
    refine ⟨t, _, sent, _, .inr rfl, hstep, hr', hsame, ?_⟩
    rw [hnow]
    exact effort_wake hcan
  · obtain ⟨t, sent, hstep, hr', hnow, hsame⟩ := exists_ask hr hmove.next?
    refine ⟨t, _, sent, _, .inl rfl, hstep, hr', hsame, ?_⟩
    rw [hnow]
    exact effort_move hpoll hmove

/-- A retrieval that is given the time to run comes to rest. -/
theorem exists_resting {r : Retrieval α} (hr : s.call? i = some r)
    (hpoll : 1 ≤ s.board.poll.ticks) :
    ∃ u r', ByItself i s u ∧ u.call? i = some r' ∧ r'.isResting u.now = true := by
  -- the induction is on what is left to do
  induction hn : r.effort s.now using Nat.strongRecOn generalizing s r with
  | ind n ih =>
    cases hrest : r.isResting s.now with
    | true => exact ⟨s, r, .refl s, hr, hrest⟩
    | false =>
      obtain ⟨t, action, sent, r₁, haction, hstep, hr₁, hsame, hless⟩ :=
        exists_own_step hr hpoll hrest
      obtain ⟨u, r', htu, hr', hrest'⟩ := ih _ (hn ▸ hless) hr₁ (hsame ▸ hpoll) rfl
      exact ⟨u, r', .step haction hstep htu, hr', hrest'⟩

/-- Steps of a retrieval take no time, and concern nobody who publishes. -/
theorem own_step_frame (haction : action = .ask i ∨ action = .wake i)
    (h : Step s action t sent) : t.now = s.now ∧ t.attempts = s.attempts := by
  rcases haction with rfl | rfl
  · cases h with
    | ask hask | report hask =>
      obtain ⟨-, -, -, -, hnow, -, -⟩ := Board.of_ask? hask
      exact ⟨hnow, rfl⟩
    | run _ h => cases h
    | attempt _ h => cases h
  · cases h with
    | wake hwake =>
      obtain ⟨r, -, -, rfl⟩ := Board.of_wake? hwake
      exact ⟨rfl, rfl⟩
    | run _ h => cases h
    | attempt _ h => cases h

theorem ByItself.frame {u : Service α} (h : ByItself i s u) :
    u.now = s.now ∧ u.attempts = s.attempts := by
  induction h with
  | refl s => exact ⟨rfl, rfl⟩
  | step haction hstep _ ih =>
    have hframe := own_step_frame haction (Step.of_step? hstep)
    exact ⟨ih.1.trans hframe.1, ih.2.trans hframe.2⟩

theorem SameCall.trans {r r' r'' : Retrieval α} (h : SameCall r r') (h' : SameCall r' r'') :
    SameCall r r'' where
  code := h'.code.trans h.code
  timeout := h'.timeout.trans h.timeout
  begun := h'.begun.trans h.begun
  result hresult := h'.result (h.result hresult)

theorem prompt_of_own (haction : action = .ask i ∨ action = .wake i) : s.Prompt i action := by
  have hacc : s.accepted? action = none := by rcases haction with rfl | rfl <;> rfl
  refine ⟨fun hne => absurd hacc hne, ?_, ?_⟩ <;> rcases haction with rfl | rfl <;> nofun

theorem ByItself.account {u : Service α} (h : ByItself i s u) {r : Retrieval α}
    {held : Option (Artifact α)} {taken : List (Publication α)} (hs : Account s r held taken)
    (hr : s.call? i = some r) :
    ∃ r', u.call? i = some r' ∧ SameCall r r' ∧ Account u r' held taken := by
  induction h generalizing r with
  | refl s => exact ⟨r, hr, .refl r, hs⟩
  | @step s t u action sent haction hstep _ ih =>
    obtain ⟨r₁, hr₁, hsame, haccount⟩ :=
      hs.step hr (prompt_of_own haction) (Step.of_step? hstep)
    have hacc : s.accepted? action = none := by rcases haction with rfl | rfl <;> rfl
    have hsilent : taken ++ (s.publication? i action).toList = taken := by
      simp [publication?, hacc]
    rw [hsilent] at haccount
    obtain ⟨r', hr', hsame', haccount'⟩ := ih haccount hr₁
    exact ⟨r', hr', hsame.trans hsame', haccount'⟩

/-! ## The meaning of a retrieval -/

/-- Where a retrieval rests and all is quiet, it has settled just as the account says. -/
theorem Account.settled?_of_quiet {r : Retrieval α} {held : Option (Artifact α)}
    {taken : List (Publication α)} (h : Account s r held taken) (hr : s.call? i = some r)
    (hquiet : s.Quiet i) :
    s.settled? i = Retrieval.settlement? r.code r.timeout r.begun s.now
      (Retrieval.firstMatch r.code r.begun held (taken.filter (·.underWay))) := by
  have hrest := hquiet.2 r hr
  simp only [Retrieval.isResting, Bool.and_eq_true, Bool.not_eq_true'] at hrest
  obtain ⟨hasleep, hcan⟩ := hrest
  rcases h.standing.of_isAsleep hquiet.1 hasleep with
    ⟨wake, hs, hnotified, hnone, -, -, hd⟩ | ⟨result, waited, hs⟩
  · have hlt : s.now < wake := by simpa [Retrieval.canWake, hs, hnotified] using hcan
    have hway : s.settled? i = none := by simp [settled?, hr, Retrieval.result?, hs]
    rw [hway, hnone, eq_comm]
    refine Option.bind_eq_none_iff.2 fun deadline hdeadline => ?_
    exact if_neg (Nat.not_le.2 (Nat.lt_of_lt_of_le hlt (hd deadline hdeadline)))
  · have hresult : r.result? = some (result, waited) := by simp only [Retrieval.result?, hs]
    rw [(h.standing.of_result? hresult).2]
    simp [settled?, hr, hresult]

/-- If nothing of the text comes at the very tick of the deadline, what counts is just what comes
before it. -/
theorem Account.firstMatch_isBefore {r : Retrieval α} {held : Option (Artifact α)}
    {taken : List (Publication α)} (h : Account s r held taken)
    (hclear : ∀ p ∈ taken, p.artifact.isFor r.code = true →
      Retrieval.deadline? r.begun r.timeout ≠ some p.tick) :
    Retrieval.firstMatch r.code r.begun held
        (taken.filter (·.isBefore (Retrieval.deadline? r.begun r.timeout))) =
      Retrieval.firstMatch r.code r.begun held (taken.filter (·.underWay)) := by
  have hway : ∀ p ∈ taken.filter (·.underWay), p.artifact.isFor r.code = true →
      p.isBefore (Retrieval.deadline? r.begun r.timeout) = true := by
    intro p hp hfor
    obtain ⟨hmem, hunder⟩ := List.mem_filter.1 hp
    unfold Publication.isBefore
    cases hd : Retrieval.deadline? r.begun r.timeout with
    | none => rfl
    | some deadline =>
      have hle : p.tick ≤ deadline := (h.early hmem).2 hunder deadline hd
      have hne : p.tick ≠ deadline := by
        rintro rfl
        exact hclear p hmem hfor hd
      simpa using Nat.lt_of_le_of_ne hle hne
  have hsplit : taken.filter (·.isBefore (Retrieval.deadline? r.begun r.timeout)) =
      (taken.filter (·.underWay)).filter (·.isBefore (Retrieval.deadline? r.begun r.timeout)) ++
      (taken.filter (!·.underWay)).filter
        (·.isBefore (Retrieval.deadline? r.begun r.timeout)) := by
    rw [← List.filter_append, h.sorted]
  rw [hsplit, Retrieval.firstMatch_append, Retrieval.firstMatch_filter hway]
  cases hfirst : Retrieval.firstMatch r.code r.begun held (taken.filter (·.underWay)) with
  | some first => rfl
  | none =>
    -- the call settled without a match, so at its deadline; the rest came later
    rw [Option.none_or]
    refine List.find?_eq_none.2 fun x hx => ?_
    obtain ⟨p, hp, rfl⟩ := List.mem_map.1 hx
    obtain ⟨hlate, hbefore⟩ := List.mem_filter.1 hp
    obtain ⟨hmem, hunder⟩ := List.mem_filter.1 hlate
    obtain ⟨result, waited, hresult, hle⟩ := h.late hmem (by simpa using hunder)
    have hset := (h.standing.of_result? hresult).2
    rw [hfirst] at hset
    unfold Publication.isBefore at hbefore
    rw [Retrieval.deadline?_of_settlement? hset] at hbefore
    exact absurd (by simpa using hbefore) (Nat.not_lt.2 hle)

theorem le_of_deadline? {begun deadline : Nat} {timeout : Span}
    (h : Retrieval.deadline? begun timeout = some deadline) : begun ≤ deadline := by
  unfold Retrieval.deadline? at h
  split at h
  · cases h
    exact Nat.le_add_right _ _
  · cases h

/-- A call begins with what the slot holds. -/
theorem account_of_retrieve {label code : String} {timeout : Span}
    (hcall : s.step? (.retrieve label code timeout) = some (t, sent)) :
    ∃ r, t.call? s.board.retrievals.size = some r ∧ r.code = code ∧ r.timeout = timeout ∧
      r.begun = s.now ∧ Account t r s.slot.latest [] := by
  obtain ⟨rfl, -⟩ : { s with board := s.board.call label code timeout } = t ∧ [] = sent := by
    simpa [step?] using hcall
  refine ⟨_, Array.getElem?_push_size, rfl, rfl, rfl, Nat.le_refl _, ?_, rfl,
    fun hp => absurd hp List.not_mem_nil, fun hp => absurd hp List.not_mem_nil⟩
  refine .looking (.inl rfl) ⟨?_, ?_, fun hd => le_of_deadline? hd⟩
  · show s.slot.find? code = _
    unfold Slot.find? Retrieval.firstMatch
    cases s.slot.latest with
    | none => rfl
    | some a => by_cases hfor : a.source = code <;> simp [hfor]
  · intro p hp
    unfold Retrieval.firstMatch at hp
    cases hheld : s.slot.latest with
    | none =>
      rw [hheld] at hp
      cases hp
    | some a =>
      rw [hheld] at hp
      have hmem := List.mem_of_find?_eq_some hp
      obtain rfl := List.mem_singleton.1 hmem
      rfl

/-- A call returns at the tick at which it settles. -/
theorem Account.returns {r : Retrieval α} {held : Option (Artifact α)}
    {taken : List (Publication α)} (h : Account s r held taken) (hr : s.call? i = some r)
    (hstep : Step s action t sent) (hway : s.settled? i = none) {tick : Nat}
    {result : RetrievalResult α} (hsettled : t.settled? i = some (tick, result)) :
    t.now = tick := by
  have hnone : r.result? = none := by simpa [settled?, hr] using hway
  -- a step other than the last one of the call leaves it without a result
  have still {r' : Retrieval α} (hr' : t.call? i = some r') (hsame : r'.result? = none) :
      t.now = tick := by
    simp [settled?, hr', hsame] at hsettled
  cases hstep.callStep hr with
  | still hr' _ _ => exact still hr' hnone
  | tick _ ht =>
    subst ht
    exact still hr hnone
  | publish _ hr' _ _ _ => exact still hr' hnone
  | notify hr' _ =>
    refine still hr' ?_
    unfold Retrieval.notify
    split <;> exact hnone
  | move _ hmove hr' hstill =>
    cases hmove with
    | settle hs =>
      cases h.standing with
      | reporting hs' hw _ =>
        rw [hs] at hs'
        cases hs'
        simp only [settled?, hr', Option.bind_some, Retrieval.result?, Option.map_some,
          Option.some.injEq, Prod.mk.injEq] at hsettled
        exact hstill.now.trans (hw.symm.trans hsettled.1)
      | looking hs' _ => rcases hs' with hs' | hs' <;> simp [hs] at hs'
      | testing hs' _ _ => simp [hs] at hs'
      | parked hs' _ _ _ _ => simp [hs] at hs'
      | matched hs' _ _ => simp [hs] at hs'
      | overdue hs' _ _ _ => simp [hs] at hs'
      | settled hs' _ _ => simp [hs] at hs'
    | _ => exact still hr' rfl
  | wake _ _ hr' _ => exact still hr' rfl
  | abandon _ hr' _ => exact still hr' rfl

/-- The exact meaning of a retrieval that is begun at the tick `s₀.now`, in a history in which it is
given the time to run whenever it is woken. Whenever all is quiet, and so before every tick of the
clock, it has settled just as `settlement?` says of what the slot held at the beginning and took
while the call was under way; which is what it took before the deadline, unless something of the
text came at the very tick of the deadline. What the slot takes while the call is under way comes
not after the deadline, and the rest comes after the call has settled. The call returns at the tick
at which it settles, and it comes to rest by itself without time going on. -/
theorem retrieval_timed_meaning {s₀ : Service α} {label code : String} {timeout : Span}
    {actions : List (Action α)} {told : List Stamped} {taken : List (Publication α)}
    (hpoll : 1 ≤ s₀.board.poll.ticks) (hi : s₀.board.retrievals.size = i)
    (hcall : s₀.step? (.retrieve label code timeout) = some (s, told))
    (hsteps : s.steps? actions = some (t, sent)) (hprompt : s.Along (Prompt i) actions)
    (htaken : s.observe (publication? i) actions = taken) :
    (t.Quiet i →
      t.settled? i = Retrieval.settlement? code timeout s₀.now t.now
        (Retrieval.firstMatch code s₀.now s₀.slot.latest (taken.filter (·.underWay))) ∧
      ((∀ p ∈ taken, p.artifact.isFor code = true →
          Retrieval.deadline? s₀.now timeout ≠ some p.tick) →
        t.settled? i = Retrieval.settlement? code timeout s₀.now t.now
          (Retrieval.firstMatch code s₀.now s₀.slot.latest
            (taken.filter (·.isBefore (Retrieval.deadline? s₀.now timeout)))))) ∧
    (∀ p ∈ taken, s₀.now ≤ p.tick ∧
      (p.underWay = true → ∀ deadline,
        Retrieval.deadline? s₀.now timeout = some deadline → p.tick ≤ deadline) ∧
      (p.underWay = false →
        ∃ tick result, t.settled? i = some (tick, result) ∧ tick ≤ p.tick)) ∧
    (∀ action u more tick result, t.step? action = some (u, more) → t.settled? i = none →
      u.settled? i = some (tick, result) → u.now = tick) ∧
    (∃ u, ByItself i t u ∧ u.now = t.now ∧ (¬ t.Publishing → u.Quiet i ∧
      u.settled? i = Retrieval.settlement? code timeout s₀.now t.now
        (Retrieval.firstMatch code s₀.now s₀.slot.latest (taken.filter (·.underWay))))) := by
  subst hi htaken
  obtain ⟨r₀, hr₀, rfl, rfl, hbegun, haccount₀⟩ := account_of_retrieve hcall
  have hall : ∃ r, t.call? s₀.board.retrievals.size = some r ∧ SameCall r₀ r ∧
      Account t r s₀.slot.latest (s.observe (publication? s₀.board.retrievals.size) actions) := by
    refine hprompt.observe_induct (motive := fun u seen =>
      ∃ r, u.call? s₀.board.retrievals.size = some r ∧ SameCall r₀ r ∧
        Account u r s₀.slot.latest seen)
      (fun {u v a told seen} _ _ hp hstep hu => ?_) hsteps ⟨r₀, hr₀, .refl r₀, haccount₀⟩
    obtain ⟨r, hr, hsame, haccount⟩ := hu
    obtain ⟨r', hr', hsame', haccount'⟩ := haccount.step hr hp (Step.of_step? hstep)
    exact ⟨r', hr', hsame.trans hsame', haccount'⟩
  obtain ⟨r, hr, hsame, haccount⟩ := hall
  rw [← hsame.code, ← hsame.timeout, ← hbegun, ← hsame.begun]
  have hpoll' : 1 ≤ t.board.poll.ticks := by
    have hpolls : t.board.poll = s₀.board.poll :=
      ((Reaches.of_step hcall).trans ⟨actions, sent, hsteps⟩).induct
        (motive := fun u => u.board.poll = s₀.board.poll)
        (fun hu hstep => (Step.of_step? hstep).poll.trans hu) rfl
    rw [hpolls]
    exact hpoll
  refine ⟨fun hquiet => ?_, fun p hp => ?_, fun action u more tick result hstep hway hsettled => ?_,
    ?_⟩
  · have hmeaning := haccount.settled?_of_quiet hr hquiet
    refine ⟨hmeaning, fun hclear => ?_⟩
    rw [haccount.firstMatch_isBefore hclear]
    exact hmeaning
  · refine ⟨(haccount.early hp).1, (haccount.early hp).2, fun hunder => ?_⟩
    obtain ⟨result, waited, hresult, hle⟩ := haccount.late hp hunder
    exact ⟨r.begun + waited, result, by simp [settled?, hr, hresult], hle⟩
  · exact haccount.returns hr (Step.of_step? hstep) hway hsettled
  · obtain ⟨u, r', htu, hr', hrest⟩ := exists_resting hr hpoll'
    obtain ⟨hnow, hattempts⟩ := htu.frame
    refine ⟨u, htu, hnow, fun hdone => ?_⟩
    have hquiet : u.Quiet s₀.board.retrievals.size := by
      refine ⟨fun ⟨g, a, succeeded, ha, hstage⟩ => hdone ⟨g, a, succeeded, ?_, hstage⟩, ?_⟩
      · rw [← ha, Service.attempt?, Service.attempt?, hattempts]
      · intro r'' hr''
        rw [hr'] at hr''
        cases hr''
        exact hrest
    obtain ⟨r'', hr'', hsame'', haccount''⟩ := htu.account haccount hr
    rw [haccount''.settled?_of_quiet hr'' hquiet, hsame''.code, hsame''.timeout, hsame''.begun,
      hnow]
    exact ⟨hquiet, rfl⟩

/-- Whatever is configured, the retrievals poll at an interval of at least one tick. -/
theorem Reachable.one_le_ticks_poll (h : s.Reachable) : 1 ≤ s.board.poll.ticks := by
  obtain ⟨config, sink, text, hs⟩ := h
  have hpoll : s.board.poll = config.effectiveRetrievePoll :=
    hs.induct (motive := fun u => u.board.poll = config.effectiveRetrievePoll)
      (fun hu hstep => (Step.of_step? hstep).poll.trans hu) rfl
  rw [hpoll]
  exact config.one_le_ticks_effectiveRetrievePoll

theorem not_publishing_of_forall
    (h : ∀ a ∈ s.attempts, ∀ succeeded, a.stage ≠ .stored succeeded) : ¬ s.Publishing := by
  rintro ⟨g, a, succeeded, ha, hstage⟩
  exact h a (mem_of_attempt? ha) succeeded hstage

theorem quiet_of_all (hattempts : ∀ a ∈ s.attempts, ∀ succeeded, a.stage ≠ .stored succeeded)
    {r : Retrieval α} (hr : s.call? i = some r) (hrest : r.isResting s.now = true) :
    s.Quiet i := by
  refine ⟨not_publishing_of_forall hattempts, fun r' hr' => ?_⟩
  rw [hr] at hr'
  cases hr'
  exact hrest

/-- The slot is empty when the call begins and takes the artifact one tick later. The call, which
has slept since then, settles on it at that very tick. -/
theorem retrieval_timed_meaning_next_tick :
    ∃ s₀ s t : Service Nat, ∃ told sent, s₀.Reachable ∧ s₀.now = 1 ∧
      s₀.step? (.retrieve "caller" "b" (.ofMillis 100)) = some (s, told) ∧
      s.steps? [.ask 0, .ask 0, .ask 0, .tick, .finish 1, .finish 1, .wake 0, .ask 0, .ask 0,
        .ask 0, .ask 0] = some (t, sent) ∧
      t.settled? 0 = some (2, .ok (.compiled "b" 1 7)) := by
  have hs₀ : @Reachable Nat _ := ⟨{}, {}, "b", [.start, .tick, .poll 1] ++
    List.replicate 6 (.proceed 1) ++ [.take 1, .compiled 1 (.value 7)], _, rfl⟩
  -- notifying goes through an array, which only full unfolding evaluates
  refine ⟨_, _, ?t, _, ?sent, hs₀, rfl, rfl, ?steps, ?settled⟩
  case steps => with_unfolding_all exact rfl
  case settled =>
    refine ((@retrieval_timed_meaning Nat _ _ _ 0 _ "caller" "b" (.ofMillis 100)
      [.ask 0, .ask 0, .ask 0, .tick, .finish 1, .finish 1, .wake 0, .ask 0, .ask 0, .ask 0,
        .ask 0] _ _ hs₀.one_le_ticks_poll rfl rfl (by with_unfolding_all exact rfl) ?_ rfl).1
        ?_).1.trans ?_
    · refine along_cons (prompt_of_own (.inl rfl)) rfl ?_
      refine along_cons (prompt_of_own (.inl rfl)) rfl ?_
      refine along_cons (prompt_of_own (.inl rfl)) rfl ?_
      refine along_cons ⟨nofun, fun _ => quiet_of_all ?_ rfl rfl, nofun⟩ rfl ?_
      · intro a ha
        obtain rfl := List.mem_singleton.1 ha
        nofun
      refine along_cons ⟨fun _ => ⟨not_publishing_of_forall ?_, ?_⟩, nofun, nofun⟩ rfl ?_
      · intro a ha
        obtain rfl := List.mem_singleton.1 ha
        nofun
      · intro r hr
        cases hr
        rfl
      refine along_cons ⟨fun h => absurd rfl h, nofun, nofun⟩ rfl ?_
      refine along_of_forall fun a ha u => prompt_of_own ?_
      simpa [or_comm] using ha
    · with_unfolding_all refine quiet_of_all ?_ rfl rfl
      intro a ha
      obtain rfl := List.mem_singleton.1 ha
      nofun
    · with_unfolding_all rfl

end Service

end CompileWatch
