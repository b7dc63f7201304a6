import CompileWatch.Retrieval.Board
import Mathlib.Data.List.Induction
import Mathlib.Order.Basic

/-!
# What a slot makes of its history

A slot keeps one artifact and one number. This is enough to answer as if it knew all that was ever
done to it: it accepts an artifact exactly if its attempt is not cancelled, no newer attempt was
ever started, and none as new was ever accepted. The numbers may come in any order, repeated or 0,
and an artifact may be newer than every attempt that was started.
-/
namespace CompileWatch

/-- What is done at a slot. Tokens bear numbers, and each offer is made with one of them. -/
inductive SlotAct (α : Type) where
  | advance (g : Generation)
  | cancel (token : Nat)
  | publish (a : Artifact α) (token : Nat)
  /-- Those who wait in front of the slot come, go, arm their wake-up or fall asleep. -/
  | wait (retrievals : Array (Retrieval α))

/-- A slot with those who wait in front of it, and the tokens that are cancelled. -/
structure SlotScene (α : Type) where
  board : Board α
  cancelled : List Nat := []

namespace SlotScene

variable {α : Type} {acts : List (SlotAct α)}

def slot (s : SlotScene α) : Slot α := s.board.slot

/-- How an offer ends. -/
def offer (s : SlotScene α) (a : Artifact α) (token : Nat) : PublishOutcome × Board α :=
  s.board.publish a (decide (token ∈ s.cancelled))

def step (s : SlotScene α) : SlotAct α → SlotScene α
  | .advance g => { s with board := { s.board with slot := s.slot.advance g } }
  | .cancel token => { s with cancelled := token :: s.cancelled }
  | .publish a token => { s with board := (s.offer a token).2 }
  | .wait retrievals => { s with board := { s.board with retrievals } }

/-- The artifact that the slot accepts. -/
def accepted? (s : SlotScene α) : SlotAct α → Option (Artifact α)
  | .publish a token => if (s.offer a token).1 = .published then some a else none
  | _ => none

/-- What comes of a history that begins with an empty slot and nobody in front of it. -/
def after (poll : Span) (acts : List (SlotAct α)) : SlotScene α :=
  acts.foldl step { board := { poll } }

/-- The artifacts that are accepted in a history that begins in `s`, oldest first. -/
def acceptedFrom (s : SlotScene α) : List (SlotAct α) → List (Artifact α)
  | [] => []
  | act :: rest => (s.accepted? act).toList ++ acceptedFrom (s.step act) rest

def accepted (poll : Span) (acts : List (SlotAct α)) : List (Artifact α) :=
  acceptedFrom { board := { poll } } acts

/-- The numbers of the attempts that were started. -/
def advanced (acts : List (SlotAct α)) : List Generation :=
  acts.filterMap fun
    | .advance g => some g
    | _ => none

theorem mem_advanced {g : Generation} : g ∈ advanced acts ↔ .advance g ∈ acts := by
  unfold advanced
  rw [List.mem_filterMap]
  constructor
  · rintro ⟨act, hact, hg⟩
    cases act with
    | advance h => cases hg; exact hact
    | cancel | publish | wait => cases hg
  · intro h
    exact ⟨_, h, rfl⟩

theorem advanced_append (first second : List (SlotAct α)) :
    advanced (first ++ second) = advanced first ++ advanced second :=
  List.filterMap_append

theorem after_concat (poll : Span) (acts : List (SlotAct α)) (act : SlotAct α) :
    after poll (acts ++ [act]) = (after poll acts).step act := by
  unfold after
  rw [List.foldl_append, List.foldl_cons, List.foldl_nil]

theorem acceptedFrom_append (s : SlotScene α) (first second : List (SlotAct α)) :
    s.acceptedFrom (first ++ second) =
      s.acceptedFrom first ++ (first.foldl step s).acceptedFrom second := by
  induction first generalizing s with
  | nil => rfl
  | cons act rest ih =>
    show _ ++ acceptedFrom (s.step act) (rest ++ second) = _
    rw [ih, acceptedFrom, List.foldl_cons, List.append_assoc]

theorem accepted_concat (poll : Span) (acts : List (SlotAct α)) (act : SlotAct α) :
    accepted poll (acts ++ [act]) =
      accepted poll acts ++ ((after poll acts).accepted? act).toList := by
  unfold accepted
  rw [acceptedFrom_append]
  show _ ++ (((after poll acts).accepted? act).toList ++ []) = _
  rw [List.append_nil]

/-! ## One offer -/

variable {s : SlotScene α} {a : Artifact α} {token : Nat}

theorem offer_eq_verdict :
    (s.offer a token).1 = s.slot.verdict a (decide (token ∈ s.cancelled)) := by
  by_cases h : s.slot.verdict a (decide (token ∈ s.cancelled)) = .published
  · rw [h]
    exact congrArg Prod.fst (Board.publish_of_published h)
  · exact congrArg Prod.fst (Board.publish_of_refused h)

/-- A refused offer makes no difference, neither to the slot nor to those who wait. -/
theorem step_of_refused (h : (s.offer a token).1 ≠ .published) : s.step (.publish a token) = s := by
  rw [offer_eq_verdict] at h
  show { s with board := (s.board.publish a (decide (token ∈ s.cancelled))).2 } = s
  rw [Board.publish_of_refused h]

/-- An accepted offer takes the place of what the slot held, and wakes those who wait. -/
theorem step_of_published (h : (s.offer a token).1 = .published) :
    s.step (.publish a token) =
      { s with board := { s.board with slot := { s.slot with latest := some a } }.notify } := by
  rw [offer_eq_verdict] at h
  show { s with board := (s.board.publish a (decide (token ∈ s.cancelled))).2 } = _
  rw [Board.publish_of_published h]
  rfl

/-- What the slot holds after an act is what the act brings, or what it held before. -/
theorem latest_step (s : SlotScene α) (act : SlotAct α) :
    (s.step act).slot.latest = (s.accepted? act).or s.slot.latest := by
  cases act with
  | publish a token =>
    by_cases h : (s.offer a token).1 = .published
    · rw [step_of_published h, accepted?, if_pos h]
      rfl
    · rw [step_of_refused h, accepted?, if_neg h]
      rfl
  | advance | cancel | wait => rfl

/-- Only a new attempt raises the floor. -/
theorem floor_step (s : SlotScene α) (act : SlotAct α) :
    (s.step act).slot.floor = (advanced [act]).foldl max s.slot.floor := by
  cases act with
  | publish a token =>
    by_cases h : (s.offer a token).1 = .published
    · rw [step_of_published h]
      rfl
    · rw [step_of_refused h]
      rfl
  | advance | cancel | wait => rfl

theorem mem_cancelled_step (s : SlotScene α) (act : SlotAct α) :
    token ∈ (s.step act).cancelled ↔ act = .cancel token ∨ token ∈ s.cancelled := by
  cases act with
  | cancel t =>
    show token ∈ t :: s.cancelled ↔ _
    rw [List.mem_cons, SlotAct.cancel.injEq, eq_comm]
  | advance | publish | wait => simp [step]

theorem stored_lt_of_accepted? {act : SlotAct α} (h : s.accepted? act = some a) :
    s.slot.stored < a.generation := by
  cases act with
  | publish b token =>
    by_cases hb : (s.offer b token).1 = .published
    · rw [accepted?, if_pos hb] at h
      cases h
      rw [offer_eq_verdict] at hb
      exact (Slot.verdict_eq_published_iff.1 hb).2.2
    · rw [accepted?, if_neg hb] at h
      cases h
  | advance | cancel | wait => cases h

/-! ## The whole history -/

/-- What the slot keeps of its history. -/
structure Remembers (poll : Span) (acts : List (SlotAct α)) : Prop where
  latest : (after poll acts).slot.latest = (accepted poll acts).getLast?
  floor : (after poll acts).slot.floor = (advanced acts).foldl max 0
  cancelled (token : Nat) : token ∈ (after poll acts).cancelled ↔ .cancel token ∈ acts
  increasing : ((accepted poll acts).map (·.generation)).Pairwise (· < ·)
  le_stored (a : Artifact α) : a ∈ accepted poll acts →
    a.generation ≤ (after poll acts).slot.stored

theorem Remembers.concat {poll : Span} (h : Remembers poll acts) (act : SlotAct α) :
    Remembers poll (acts ++ [act]) := by
  have hlatest := latest_step (after poll acts) act
  refine { latest := ?_, floor := ?_, cancelled := ?_, increasing := ?_, le_stored := ?_ }
  · rw [after_concat, accepted_concat, hlatest, h.latest, List.getLast?_append]
    cases (after poll acts).accepted? act <;> rfl
  · rw [after_concat, floor_step, h.floor, advanced_append, List.foldl_append]
  · intro token
    rw [after_concat, mem_cancelled_step, h.cancelled, List.mem_append, List.mem_singleton, or_comm,
      eq_comm]
  · rw [accepted_concat]
    cases hacc : (after poll acts).accepted? act with
    | none => simpa using h.increasing
    | some a =>
      rw [Option.toList_some, List.map_append, List.pairwise_append]
      refine ⟨h.increasing, List.pairwise_singleton .., ?_⟩
      intro g hg k hk
      obtain ⟨b, hb, rfl⟩ := List.mem_map.1 hg
      obtain rfl : k = a.generation := by simpa using hk
      exact Nat.lt_of_le_of_lt (h.le_stored b hb) (stored_lt_of_accepted? hacc)
  · intro b hb
    rw [accepted_concat] at hb
    rw [after_concat]
    unfold Slot.stored
    rw [hlatest]
    cases hacc : (after poll acts).accepted? act with
    | none =>
      rw [hacc, Option.toList_none, List.append_nil] at hb
      exact h.le_stored b hb
    | some a =>
      rw [hacc, Option.toList_some, List.mem_append, List.mem_singleton] at hb
      rcases hb with hb | rfl
      · exact Nat.le_of_lt (Nat.lt_of_le_of_lt (h.le_stored b hb) (stored_lt_of_accepted? hacc))
      · exact Nat.le_refl _

theorem remembers (poll : Span) (acts : List (SlotAct α)) : Remembers poll acts := by
  induction acts using List.reverseRecOn with
  | nil =>
    exact { latest := rfl, floor := rfl, cancelled := fun token => by simp [after]
            increasing := List.Pairwise.nil, le_stored := nofun }
  | append_singleton acts act ih => exact ih.concat act

theorem foldl_max_le_iff (numbers : List Nat) (n m : Nat) :
    numbers.foldl max n ≤ m ↔ n ≤ m ∧ ∀ g ∈ numbers, g ≤ m := by
  induction numbers generalizing n with
  | nil => simp
  | cons g rest ih => rw [List.foldl_cons, ih, Nat.max_le, List.forall_mem_cons, and_assoc]

/-- The floor is at most at a number exactly if no newer attempt was started. -/
theorem floor_le_iff {poll : Span} {n : Generation} :
    (after poll acts).slot.floor ≤ n ↔ ∀ g, .advance g ∈ acts → g ≤ n := by
  rw [(remembers poll acts).floor, foldl_max_le_iff]
  simp only [mem_advanced, Nat.zero_le, true_and]

/-- What is stored is older than a number exactly if everything is that was ever accepted. -/
theorem stored_lt_iff {poll : Span} {n : Generation} :
    (after poll acts).slot.stored < n ↔ 0 < n ∧ ∀ a ∈ accepted poll acts, a.generation < n := by
  have h := remembers poll acts
  constructor
  · intro hn
    refine ⟨Nat.lt_of_le_of_lt (Nat.zero_le _) hn, ?_⟩
    intro a ha
    exact Nat.lt_of_le_of_lt (h.le_stored a ha) hn
  · rintro ⟨hpos, hall⟩
    unfold Slot.stored
    rw [h.latest]
    cases hlast : (accepted poll acts).getLast? with
    | none => exact hpos
    | some a => exact hall a (List.mem_of_getLast? hlast)

/-- The slot answers by its history, which is told here by the acts alone. -/
structure AnswersByHistory (poll : Span) (acts : List (SlotAct α)) : Prop where
  /-- The floor is the newest attempt that was ever started. -/
  floor : (after poll acts).slot.floor = (advanced acts).max?.getD 0
  /-- What is accepted is newer than all that was accepted before. -/
  increasing : ((accepted poll acts).map (·.generation)).Pairwise (· < ·)
  /-- The slot holds what was accepted last, and gives it out for exactly its own text. -/
  latest : (after poll acts).slot.latest = (accepted poll acts).getLast?
  found (code : String) (a : Artifact α) : (after poll acts).slot.find? code = some a ↔
    (accepted poll acts).getLast? = some a ∧ a.source = code
  /-- An offer is accepted if its token is not cancelled, no newer attempt was ever started, and
  nothing as new was ever accepted. -/
  published (a : Artifact α) (token : Nat) :
    ((after poll acts).offer a token).1 = .published ↔
      .cancel token ∉ acts ∧ (∀ g, .advance g ∈ acts → g ≤ a.generation) ∧
        (∀ b ∈ accepted poll acts, b.generation < a.generation) ∧ 0 < a.generation
  /-- That its token is cancelled is said first. -/
  cancelled (a : Artifact α) (token : Nat) :
    ((after poll acts).offer a token).1 = .cancelled ↔ .cancel token ∈ acts
  superseded (a : Artifact α) (token : Nat) :
    ((after poll acts).offer a token).1 = .superseded ↔
      .cancel token ∉ acts ∧ ((∃ g, .advance g ∈ acts ∧ a.generation < g) ∨
        (∃ b ∈ accepted poll acts, a.generation ≤ b.generation) ∨ a.generation = 0)
  /-- A refused offer changes nothing, and wakes nobody. -/
  refused (a : Artifact α) (token : Nat) : ((after poll acts).offer a token).1 ≠ .published →
    after poll (acts ++ [.publish a token]) = after poll acts
  /-- An accepted one takes the place of what the slot held, leaves the floor as it is, and wakes
  those who wait. -/
  taken (a : Artifact α) (token : Nat) : ((after poll acts).offer a token).1 = .published →
    (after poll (acts ++ [.publish a token])).board =
      { (after poll acts).board with
        slot := { latest := some a, floor := (after poll acts).slot.floor }
        retrievals := (after poll acts).board.retrievals.map (·.notify) }

/-- A slot answers by all that was done to it, in whatever order. -/
theorem slot_answers_by_history (poll : Span) (acts : List (SlotAct α)) :
    AnswersByHistory poll acts := by
  have h := remembers poll acts
  have hcancelled (token : Nat) :
      decide (token ∈ (after poll acts).cancelled) = true ↔ .cancel token ∈ acts := by
    rw [decide_eq_true_iff, h.cancelled]
  have huncancelled (token : Nat) :
      decide (token ∈ (after poll acts).cancelled) = false ↔ .cancel token ∉ acts := by
    rw [decide_eq_false_iff_not, h.cancelled]
  refine
    { floor := ?_, increasing := h.increasing, latest := h.latest, found := ?_, published := ?_
      cancelled := ?_, superseded := ?_, refused := ?_, taken := ?_ }
  · rw [h.floor, List.foldl_max, Nat.zero_max]
  · intro code a
    rw [Slot.find?_eq_some_iff, h.latest]
  · intro a token
    rw [offer_eq_verdict, Slot.verdict_eq_published_iff, huncancelled, floor_le_iff, stored_lt_iff]
    exact and_congr_right fun _ => and_congr_right fun _ => and_comm
  · intro a token
    rw [offer_eq_verdict, Slot.verdict_eq_cancelled_iff, hcancelled]
  · intro a token
    rw [offer_eq_verdict, Slot.verdict_eq_superseded_iff, huncancelled]
    have hfloor : a.generation < (after poll acts).slot.floor ↔
        ∃ g, .advance g ∈ acts ∧ a.generation < g := by
      rw [← Nat.not_le, floor_le_iff]
      simp
    have hstored : a.generation ≤ (after poll acts).slot.stored ↔
        (∃ b ∈ accepted poll acts, a.generation ≤ b.generation) ∨ a.generation = 0 := by
      rw [← Nat.not_lt, stored_lt_iff, not_and_or, Nat.not_lt, Nat.le_zero_eq, or_comm]
      simp only [not_forall, Nat.not_lt, exists_prop]
    rw [hfloor, hstored]
  · intro a token hrefused
    rw [after_concat, step_of_refused hrefused]
  · intro a token htaken
    rw [after_concat, step_of_published htaken]
    rfl

/-- An artifact that is newer than every attempt does not move the floor, and outlives an older one
that comes in after it. -/
example : let acts : List (SlotAct Unit) :=
      [.advance 2, .publish (.compiled "b" 5 ()) 0, .publish (.compiled "a" 3 ()) 1]
    (after (.ofMillis 1) acts).slot.floor = 2 ∧ (after (.ofMillis 1) acts).slot.stored = 5 :=
  ⟨rfl, rfl⟩

end SlotScene

end CompileWatch
