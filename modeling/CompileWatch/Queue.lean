/-!
# Queues

First in, first out. A queue is kept in two lists, so that both of its ends are at hand; `toList`
says what is in it, oldest first.
-/
namespace CompileWatch

structure Queue (α : Type) where
  /-- The older items, oldest first. -/
  front : List α := []
  /-- The newer items, newest first. -/
  back : List α := []
  /-- How many items there are. -/
  size : Nat := 0
  size_eq : size = front.length + back.length := by exact Nat.zero_eq
  deriving Repr

namespace Queue

variable {α : Type}

instance : Inhabited (Queue α) := ⟨{}⟩

/-- What is in the queue, oldest first. -/
def toList (q : Queue α) : List α := q.front ++ q.back.reverse

/-- Puts an item behind all others. -/
def enqueue (q : Queue α) (a : α) : Queue α where
  front := q.front
  back := a :: q.back
  size := q.size + 1
  size_eq := by rw [q.size_eq, List.length_cons, Nat.add_assoc]

/-- The queue of the items of a list. -/
def ofList (items : List α) : Queue α where
  front := items
  size := items.length
  size_eq := rfl

/-- Takes the oldest item out. -/
def dequeue? (q : Queue α) : Option (α × Queue α) :=
  match h : q.front with
  | a :: rest => some (a,
      { front := rest
        back := q.back
        size := q.size - 1
        size_eq := by rw [q.size_eq, h, List.length_cons]; omega })
  | [] =>
    match q.back.reverse with
    | a :: rest => some (a, ofList rest)
    | [] => none

@[simp] theorem toList_empty : ({} : Queue α).toList = [] := rfl

@[simp] theorem toList_ofList (items : List α) : (ofList items).toList = items := by
  simp [toList, ofList]

@[simp] theorem toList_enqueue (q : Queue α) (a : α) :
    (q.enqueue a).toList = q.toList ++ [a] := by
  simp [toList, enqueue]

@[simp] theorem length_toList (q : Queue α) : q.toList.length = q.size := by
  simp [toList, q.size_eq]

@[simp] theorem size_enqueue (q : Queue α) (a : α) : (q.enqueue a).size = q.size + 1 := rfl

/-- The item that is taken out was the first. -/
theorem toList_of_dequeue? {q rest : Queue α} {a : α} (h : q.dequeue? = some (a, rest)) :
    q.toList = a :: rest.toList := by
  unfold dequeue? at h
  split at h
  · next b front hf =>
    obtain ⟨rfl, rfl⟩ := Prod.mk.inj (Option.some.inj h)
    simp [toList, hf]
  · next hf =>
    split at h
    · next b back hb =>
      obtain ⟨rfl, rfl⟩ := Prod.mk.inj (Option.some.inj h)
      simp [toList, hf, hb, ofList]
    · cases h

theorem size_of_dequeue? {q rest : Queue α} {a : α} (h : q.dequeue? = some (a, rest)) :
    q.size = rest.size + 1 := by
  rw [← length_toList, toList_of_dequeue? h, List.length_cons, length_toList]

/-- Nothing can be taken out of a queue exactly if nothing is in it. -/
theorem dequeue?_eq_none_iff {q : Queue α} : q.dequeue? = none ↔ q.toList = [] := by
  unfold dequeue?
  split
  · next hf => simp [toList, hf]
  · next hf =>
    split
    · next hb => simp [toList, hf, hb]
    · next hb => simp [toList, hf, hb]

end Queue

end CompileWatch
