import CompileWatch.Queue

/-!
# Lines

Tasks that take turns. A task that is ready gets in line, and has its turn when all before it have
had theirs. One that was called from outside comes after all that are ready. A task whose turn was
cut short steps aside until nobody is left in line; of several, the one that stepped aside last
comes back first. `toList` says in which order the tasks would have their turns if nobody joined
them, and taking the next one out takes the first of that list.
-/
namespace CompileWatch

structure Line (τ : Type) where
  /-- Those who are ready. -/
  ready : Queue τ := {}
  /-- Those who were called from outside. -/
  called : Queue τ := {}
  /-- Those who stepped aside, the last one first. -/
  aside : List τ := []

/-- How a turn ends. -/
inductive TurnEnd where
  /-- There was nothing left to do. -/
  | done
  /-- The turn had no room for more. -/
  | cutShort
  deriving DecidableEq, Repr

namespace Line

variable {τ : Type}

instance : Inhabited (Line τ) := ⟨{}⟩

/-- The most things for which one turn has room. -/
def turnLength : Nat := 128

/-- The tasks in the order of their turns. -/
def toList (l : Line τ) : List τ := l.ready.toList ++ l.called.toList ++ l.aside

/-- A task gets in line. -/
def join (l : Line τ) (t : τ) : Line τ := { l with ready := l.ready.enqueue t }

/-- Tasks get in line one after the other. -/
def joinAll (l : Line τ) (tasks : List τ) : Line τ := tasks.foldl join l

/-- A task whose turn was cut short steps aside. -/
def stepAside (l : Line τ) (t : τ) : Line τ := { l with aside := t :: l.aside }

/-- All who are ready count as called from outside. -/
def callAll (l : Line τ) : Line τ :=
  { l with ready := {}, called := .ofList (l.called.toList ++ l.ready.toList) }

/-- The task whose turn it is, and the line without it. -/
def next? (l : Line τ) : Option (τ × Line τ) :=
  match l.ready.dequeue? with
  | some (t, ready) => some (t, { l with ready })
  | none =>
    match l.called.dequeue? with
    | some (t, called) => some (t, { l with ready := {}, called })
    | none =>
      match l.aside with
      | t :: rest => some (t, { ready := .ofList rest })
      | [] => none

@[simp] theorem toList_empty : ({} : Line τ).toList = [] := rfl

/-- Who joins comes after those who are ready, and before all others. -/
theorem toList_join (l : Line τ) (t : τ) :
    (l.join t).toList = l.ready.toList ++ t :: (l.called.toList ++ l.aside) := by
  simp [toList, join]

/-- Who steps aside comes after those in line, and before the others who stepped aside. -/
theorem toList_stepAside (l : Line τ) (t : τ) :
    (l.stepAside t).toList = l.ready.toList ++ l.called.toList ++ t :: l.aside := by
  simp [toList, stepAside]

/-- It is the turn of the first task of the list. -/
theorem toList_of_next? {l rest : Line τ} {t : τ} (h : l.next? = some (t, rest)) :
    l.toList = t :: rest.toList := by
  unfold next? at h
  split at h
  · next hr =>
    obtain ⟨rfl, rfl⟩ := Prod.mk.inj (Option.some.inj h)
    simp [toList, Queue.toList_of_dequeue? hr]
  · next hr =>
    split at h
    · next hc =>
      obtain ⟨rfl, rfl⟩ := Prod.mk.inj (Option.some.inj h)
      simp [toList, Queue.dequeue?_eq_none_iff.1 hr, Queue.toList_of_dequeue? hc]
    · next hc =>
      split at h
      · next ha =>
        obtain ⟨rfl, rfl⟩ := Prod.mk.inj (Option.some.inj h)
        simp [toList, Queue.dequeue?_eq_none_iff.1 hr, Queue.dequeue?_eq_none_iff.1 hc, ha]
      · cases h

/-- It is nobody's turn exactly if nobody is in line or aside. -/
theorem next?_eq_none_iff {l : Line τ} : l.next? = none ↔ l.toList = [] := by
  unfold next?
  split
  · next hr => simp [toList, Queue.toList_of_dequeue? hr]
  · next hr =>
    split
    · next hc => simp [toList, Queue.toList_of_dequeue? hc]
    · next hc =>
      split
      · next ha => simp [toList, ha]
      · next ha =>
        simp [toList, Queue.dequeue?_eq_none_iff.1 hr, Queue.dequeue?_eq_none_iff.1 hc, ha]

end Line

end CompileWatch
