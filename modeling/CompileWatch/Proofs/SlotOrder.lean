import CompileWatch.Proofs.Numbering

/-!
# The slot is never stale

The floor of the slot is the newest number that an attempt was started with, and the slot takes an
artifact of exactly that number only. So the slot never goes back to an older compile, in whatever
order the attempts finish and whether or not they were told that they are cancelled.
-/
namespace CompileWatch.Service

variable {α : Type} {s t : Service α} {action : Action α} {sent : List Stamped}

/-- An offer that the slot takes comes from an attempt that is not cancelled, has the number of the
floor, and is newer than what the slot holds. -/
theorem Numbered.of_accepted? (h : Numbered s) {artifact : Artifact α}
    (hacc : s.accepted? action = some artifact) :
    (∃ a, action = .finish artifact.generation ∧ s.attempt? artifact.generation = some a ∧
      a.stage = .offering artifact ∧ a.cancelled = false) ∧
      artifact.generation = s.slot.floor ∧ s.slot.stored < artifact.generation := by
  obtain ⟨g, a, rfl, ha, hs, hv⟩ := accepted?_eq_some_iff.1 hacc
  obtain ⟨hcancelled, hfloor, hstored⟩ := Slot.verdict_eq_published_iff.1 hv
  have hg := (h.offered ha hs).1
  subst hg
  exact ⟨⟨a, rfl, ha, hs, hcancelled⟩, Nat.le_antisymm (h.attempt_le ha).2 hfloor, hstored⟩

theorem Numbered.stored_le_stored (h : Numbered s) (hstep : Step s action t sent) :
    s.slot.stored ≤ t.slot.stored := by
  have hlatest := hstep.slot.1
  cases hacc : s.accepted? action with
  | none =>
    rw [hacc, Option.none_or] at hlatest
    simp only [Slot.stored, hlatest, Nat.le_refl]
  | some artifact =>
    rw [hacc, Option.some_or] at hlatest
    have hlt := (h.of_accepted? hacc).2.2
    have hstored : t.slot.stored = artifact.generation := by simp [Slot.stored, hlatest]
    rw [hstored]
    exact Nat.le_of_lt hlt

theorem Step.le_floor_of_raised? (h : Step s action t sent) {text : String} {j : Generation}
    (hraised : s.raised? action = some (text, j)) : j ≤ t.slot.floor := by
  rw [h.slot.2, hraised]
  exact Nat.le_max_right _ _

/-- Once the floor is at `j`, whatever comes into the slot has at least that number. -/
theorem Numbered.latest_eq_or_le (hs : Numbered s) {j : Generation} (hfloor : j ≤ s.slot.floor)
    (hst : s.Reaches t) : t.slot.latest = s.slot.latest ∨ j ≤ t.slot.stored := by
  -- the floor only rises, and what is taken has the number of the floor
  refine hst.induct_reached (motive := fun u => u.slot.latest = s.slot.latest ∨ j ≤ u.slot.stored)
    (fun {u v a sent} hsu hkept hstep => ?_) (.inl rfl)
  have hlatest := (Step.of_step? hstep).slot.1
  cases hacc : u.accepted? a with
  | none =>
    rw [hacc, Option.none_or] at hlatest
    simpa only [Slot.stored, hlatest] using hkept
  | some artifact =>
    rw [hacc, Option.some_or] at hlatest
    refine .inr ?_
    simp only [Slot.stored, hlatest]
    rw [((hs.reaches hsu).of_accepted? hacc).2.1]
    exact Nat.le_trans hfloor hsu.floor_le_floor

/-- The number of the stored artifact, the floor and the number handed out last are always in this
order, and the first two never decrease. The slot takes an artifact only from an attempt that is not
cancelled, whose number is the floor and newer than what is stored, and changes in no other way. So
once the floor was raised for the attempt `j`, no older attempt is ever taken. -/
theorem slot_never_stale (hs : s.Reachable) :
    s.slot.stored ≤ s.slot.floor ∧ s.slot.floor ≤ s.generation ∧
    ∀ action t sent, s.step? action = some (t, sent) →
      s.slot.floor ≤ t.slot.floor ∧ s.slot.stored ≤ t.slot.stored ∧
      (∀ artifact, s.accepted? action = some artifact →
        (∃ a, action = .finish artifact.generation ∧
          s.attempt? artifact.generation = some a ∧ a.stage = .offering artifact ∧
          a.cancelled = false) ∧
        artifact.generation = s.slot.floor ∧ s.slot.stored < artifact.generation ∧
        t.slot.latest = some artifact) ∧
      (s.accepted? action = none → t.slot.latest = s.slot.latest) ∧
      (∀ text j, s.raised? action = some (text, j) →
        ∀ u, t.Reaches u →
          (∀ later artifact, u.accepted? later = some artifact → j ≤ artifact.generation) ∧
          (u.slot.latest = t.slot.latest ∨ j ≤ u.slot.stored)) := by
  have hnumbered := hs.numbered
  refine ⟨hnumbered.stored_le_floor, hnumbered.floor_le, fun action t sent hstep => ?_⟩
  have hcases := Step.of_step? hstep
  refine ⟨hcases.numberStep.floor_le_floor, hnumbered.stored_le_stored hcases, ?_, ?_, ?_⟩
  · intro artifact hacc
    obtain ⟨hoffer, hfloor, hstored⟩ := hnumbered.of_accepted? hacc
    refine ⟨hoffer, hfloor, hstored, ?_⟩
    rw [hcases.slot.1, hacc, Option.some_or]
  · intro hacc
    rw [hcases.slot.1, hacc, Option.none_or]
  · intro text j hraised u htu
    have hj : j ≤ t.slot.floor := hcases.le_floor_of_raised? hraised
    have ht := hnumbered.step hcases.numberStep
    refine ⟨fun later artifact hacc => ?_, ht.latest_eq_or_le hj htu⟩
    rw [((ht.reaches htu).of_accepted? hacc).2.1]
    exact Nat.le_trans hj htu.floor_le_floor

/-- A second run raises the floor while the first attempt, which nobody has cancelled, has yet to
make its offer: what is taken from then on is not that attempt's. -/
theorem slot_never_stale_overlap : ∃ s t : Service Nat, ∃ sent, s.Reachable ∧
    s.step? (.proceed 2) = some (t, sent) ∧ s.raised? (.proceed 2) = some ("a", 2) ∧
    (t.attempt? 1).map (·.cancelled) = some false ∧
    ∀ artifact, t.accepted? (.finish 1) = some artifact → 2 ≤ artifact.generation := by
  have hs : @Reachable Nat _ := ⟨{}, {}, "a", [.start, .tick, .poll 1] ++
    List.replicate 6 (.proceed 1) ++ [.take 1, .compiled 1 (.value 5), .stop, .tellRun 0, .start,
      .tick, .poll 2] ++ List.replicate 3 (.proceed 2), _, rfl⟩
  refine ⟨_, _, _, hs, rfl, rfl, rfl, fun artifact hacc => ?_⟩
  obtain ⟨-, -, -, -, hlater⟩ := (slot_never_stale hs).2.2 (.proceed 2) _ _ rfl
  exact (hlater "a" 2 rfl _ (.refl _)).1 (.finish 1) artifact hacc

end CompileWatch.Service
