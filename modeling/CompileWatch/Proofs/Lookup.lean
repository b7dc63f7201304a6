import CompileWatch.Service.Step

/-!
# Looking up runs and attempts

A run is found by its identity and an attempt by its generation. Every update of the service leaves
what is found under other keys alone, so that the runs and the attempts can be read as two partial
functions that an update changes at one place.
-/
namespace CompileWatch

/-! ## Lists with keys -/

/-- An update of the elements with the key `n` is seen under `n` only. -/
theorem find?_map_key {β : Type} (key : β → Nat) {f : β → β} {n : Nat}
    (hf : ∀ b, key b = n → key (f b) = n) (l : List β) (k : Nat) :
    (l.map fun b => if key b = n then f b else b).find? (key · = k) =
      if k = n then (l.find? (key · = n)).map f else l.find? (key · = k) := by
  induction l with
  | nil => simp
  | cons b rest ih =>
    have hb := hf b
    by_cases hn : key b = n
    · by_cases hk : k = n
      · simp [hn, hb hn, hk]
      · simpa [hn, hb hn, hk, Ne.symm hk] using ih
    · by_cases hk : k = n
      · simpa [hn, hk] using ih
      · by_cases hbk : key b = k
        · simp [hk, hbk]
        · simpa [hn, hk, hbk] using ih

/-- An element that is put at the end is found where nothing was found before. -/
theorem find?_append_key {β : Type} (key : β → Nat) (l : List β) (b : β) (k : Nat) :
    (l ++ [b]).find? (key · = k) =
      (l.find? (key · = k)).or (if k = key b then some b else none) := by
  by_cases h : k = key b
  · simp [List.find?_append, h]
  · simp [List.find?_append, h, Ne.symm h]

namespace Service

variable {α : Type}

/-! ## Updates in one word -/

/-- The state with one more event made. -/
def stamped (s : Service α) : Service α := { s with nextSeq := s.nextSeq + 1 }

/-- The state after a look of a run at its attempts. -/
def looked (s : Service α) (id n : Nat) : Service α :=
  { s with attempts := (s.note id n).attempts }

/-- Taking note of ends changes nothing but the attempts. -/
theorem note_eq_looked (s : Service α) (id n : Nat) : s.note id n = s.looked id n := by
  unfold looked note
  split <;> rfl

/-- The state after a new attempt was handed to the workers. -/
def launched (s : Service α) (id : Nat) (text : String) (g : Generation) : Service α :=
  { s with attempts := s.attempts ++ [{ generation := g, run := id, source := text }] }

/-! ## Runs -/

theorem id_of_run? {s : Service α} {id : Nat} {r : Run} (h : s.run? id = some r) : r.id = id := by
  simpa using List.find?_some h

theorem run?_updateRun (s : Service α) (id : Nat) {f : Run → Run}
    (hf : ∀ r : Run, r.id = id → (f r).id = id) (k : Nat) :
    (s.updateRun id f).run? k = if k = id then (s.run? id).map f else s.run? k :=
  find?_map_key Run.id hf s.runs k

theorem run?_moveRun (s : Service α) (id : Nat) (stage : Run.Stage) (k : Nat) :
    (s.moveRun id stage).run? k =
      if k = id then (s.run? id).map ({ · with stage }) else s.run? k :=
  run?_updateRun s id (f := ({ · with stage })) (fun _ h => h) k

theorem run?_tell (s : Service α) (id k : Nat) :
    (s.updateRun id ({ · with cancelled := true })).run? k =
      if k = id then (s.run? id).map ({ · with cancelled := true }) else s.run? k :=
  run?_updateRun s id (f := ({ · with cancelled := true })) (fun _ h => h) k

/-- A new run is found under its own identity, unless that was taken before. -/
theorem run?_append (s : Service α) (r : Run) (k : Nat) :
    ({ s with runs := s.runs ++ [r] } : Service α).run? k =
      (s.run? k).or (if k = r.id then some r else none) :=
  find?_append_key Run.id s.runs r k

@[simp] theorem run?_stamped (s : Service α) (k : Nat) : s.stamped.run? k = s.run? k := rfl

@[simp] theorem run?_looked (s : Service α) (id n k : Nat) :
    (s.looked id n).run? k = s.run? k := rfl

@[simp] theorem run?_launched (s : Service α) (id : Nat) (text : String) (g : Generation)
    (k : Nat) : (s.launched id text g).run? k = s.run? k := rfl

@[simp] theorem run?_putSlot (s : Service α) (slot : Slot α) (k : Nat) :
    (s.putSlot slot).run? k = s.run? k := rfl

@[simp] theorem run?_cancelAttempt (s : Service α) (g : Generation) (k : Nat) :
    (s.cancelAttempt g).run? k = s.run? k := rfl

@[simp] theorem run?_callOff (s : Service α) (g : Generation) (k : Nat) :
    (s.callOff g).run? k = s.run? k := rfl

@[simp] theorem run?_callOffRun (s : Service α) (id k : Nat) :
    (s.callOffRun id).run? k = s.run? k := rfl

/-! ## Attempts -/

theorem generation_of_attempt? {s : Service α} {g : Generation} {a : Attempt α}
    (h : s.attempt? g = some a) : a.generation = g := by
  simpa using List.find?_some h

theorem mem_of_attempt? {s : Service α} {g : Generation} {a : Attempt α}
    (h : s.attempt? g = some a) : a ∈ s.attempts :=
  List.mem_of_find?_eq_some h

theorem exists_attempt?_of_mem {s : Service α} {a : Attempt α} (h : a ∈ s.attempts) :
    ∃ b, s.attempt? a.generation = some b := by
  refine Option.isSome_iff_exists.1 (List.find?_isSome.2 ⟨a, h, ?_⟩)
  exact decide_eq_true rfl

theorem attempt?_updateAttempt (s : Service α) (g : Generation) {f : Attempt α → Attempt α}
    (hf : ∀ a : Attempt α, a.generation = g → (f a).generation = g) (k : Generation) :
    (s.updateAttempt g f).attempt? k = if k = g then (s.attempt? g).map f else s.attempt? k :=
  find?_map_key Attempt.generation hf s.attempts k

theorem attempt?_cancelAttempt (s : Service α) (g k : Generation) :
    (s.cancelAttempt g).attempt? k =
      if k = g then (s.attempt? g).map ({ · with cancelled := true }) else s.attempt? k :=
  attempt?_updateAttempt s g (f := ({ · with cancelled := true })) (fun _ h => h) k

theorem attempt?_callOff (s : Service α) (g k : Generation) :
    (s.callOff g).attempt? k =
      if k = g then (s.attempt? g).map ({ · with calledOff := true }) else s.attempt? k :=
  attempt?_updateAttempt s g (f := ({ · with calledOff := true })) (fun _ h => h) k

theorem attempt?_callOffRun (s : Service α) (id : Nat) (k : Generation) :
    (s.callOffRun id).attempt? k =
      (s.attempt? k).map fun a => if a.run = id then { a with calledOff := true } else a := by
  simp only [attempt?, callOffRun, List.find?_map]
  congr 2
  funext a
  simp only [Function.comp]
  split <;> rfl

/-- A new attempt is found under its own generation, unless that was taken before. -/
theorem attempt?_launched (s : Service α) (id : Nat) (text : String) (g k : Generation) :
    (s.launched id text g).attempt? k =
      (s.attempt? k).or
        (if k = g then some { generation := g, run := id, source := text } else none) :=
  find?_append_key Attempt.generation s.attempts { generation := g, run := id, source := text } k

@[simp] theorem attempt?_stamped (s : Service α) (g : Generation) :
    s.stamped.attempt? g = s.attempt? g := rfl

@[simp] theorem attempt?_putSlot (s : Service α) (slot : Slot α) (g : Generation) :
    (s.putSlot slot).attempt? g = s.attempt? g := rfl

@[simp] theorem attempt?_updateRun (s : Service α) (id : Nat) (f : Run → Run) (g : Generation) :
    (s.updateRun id f).attempt? g = s.attempt? g := rfl

@[simp] theorem attempt?_moveRun (s : Service α) (id : Nat) (stage : Run.Stage)
    (g : Generation) : (s.moveRun id stage).attempt? g = s.attempt? g := rfl

/-! ## Taking note of ends -/

/-- Taking note of ends changes attempts one by one: each is as before, or it is over and now
known to be. -/
theorem find?_noteUpTo (id n : Nat) (list : List (Attempt α)) (g : Generation) :
    (noteUpTo id n list).find? (·.generation = g) = list.find? (·.generation = g) ∨
      ∃ a, list.find? (·.generation = g) = some a ∧ a.isFinished = true ∧
        (noteUpTo id n list).find? (·.generation = g) = some { a with noted := true } := by
  induction list generalizing n with
  | nil => cases n <;> exact .inl rfl
  | cons a rest ih =>
    cases n with
    | zero => exact .inl rfl
    | succ n =>
      by_cases hg : a.generation = g
      · by_cases hnews : (a.run = id && a.isUnnoted) = true
        · refine .inr ⟨a, by simp [hg], ?_, by simp [noteUpTo, hnews, hg]⟩
          simp only [Bool.and_eq_true, Attempt.isUnnoted] at hnews
          exact hnews.2.1
        · exact .inl (by simp [noteUpTo, hnews, hg])
      · by_cases hnews : (a.run = id && a.isUnnoted) = true
        · simpa [noteUpTo, hnews, hg] using ih n
        · simpa [noteUpTo, hnews, hg] using ih (n + 1)

theorem attempt?_looked (s : Service α) (id n : Nat) (g : Generation) :
    (s.looked id n).attempt? g = s.attempt? g ∨
      ∃ a, s.attempt? g = some a ∧ a.isFinished = true ∧
        (s.looked id n).attempt? g = some { a with noted := true } := by
  rw [← note_eq_looked, note]
  split
  · exact find?_noteUpTo id n s.attempts g
  · exact .inl rfl

end Service

end CompileWatch
