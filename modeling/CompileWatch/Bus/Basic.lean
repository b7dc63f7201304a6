import CompileWatch.Limit

/-!
# The bus

A bus hands every published item to all receivers that were there before it. It remembers what was
published, in order; a receiver is a position in that order. Only the newest items can still be
received: a receiver that has fallen further behind is told once how many it has lost, and goes on
with the oldest item still kept.
-/
namespace CompileWatch

/-- A bus for items of type `ε`. -/
structure Bus (ε : Type) where
  /-- How many of the newest items can still be received. -/
  size : Nat
  /-- All that was published, newest first. -/
  newestFirst : List ε := []
  /-- The position of the next item: a receiver that starts here sees all later ones. -/
  position : Nat := 0
  position_eq : position = newestFirst.length := by rfl
  /-- Nobody is left who could publish. -/
  closed : Bool := false

/-- What a receiver gets when it asks for the next item. -/
inductive Reception (ε : Type) where
  | item (e : ε)
  | lagged (lost : Nat)
  | empty
  | closed
  deriving DecidableEq, Repr

namespace Reception

variable {ε : Type}

/-- The item in a reception. -/
def item? : Reception ε → Option ε
  | item e => some e
  | _ => none

/-- How many items a reception says were lost. -/
def lost : Reception ε → Nat
  | lagged lost => lost
  | _ => 0

end Reception

namespace Bus

variable {ε : Type}

/-- The items kept by a bus of the given capacity: at least one, rounded up to a power of two. -/
def keptFor (capacity : Nat) : Nat :=
  if capacity ≤ 1 then 1 else Nat.pow 2 ((capacity - 1).log2 + 1)

/-- A bus on which nothing has been published. -/
def ofCapacity (capacity : Nat) : Bus ε := { size := keptFor capacity }

/-- The largest capacity that can be counted: it has no more than 63 bits, so that the power of two
that it is rounded up to still fits in 64. -/
def mostPlaces : Nat := Nat.pow 2 63 - 1

/-- The bytes that one place takes. -/
def placeSize : Nat := 144

/-- The bytes that can be addressed in one piece. -/
def addressable : Nat := Nat.pow 2 63 - 1

/-- Refuses a capacity that cannot be counted or whose places cannot be addressed. -/
def checkCapacity (capacity : Nat) : Except LimitError Unit :=
  if mostPlaces < capacity then .error .busTooLarge
  else if addressable < placeSize * keptFor capacity then .error .busTooHeavy
  else .ok ()

/-- A bus on which nothing has been published, if it can be had. -/
def ofCapacity? (capacity : Nat) : Except LimitError (Bus ε) := do
  checkCapacity capacity
  return ofCapacity capacity

/-- All that was published, oldest first. -/
def published (b : Bus ε) : List ε := b.newestFirst.reverse

def publish (b : Bus ε) (e : ε) : Bus ε where
  size := b.size
  newestFirst := e :: b.newestFirst
  position := b.position + 1
  position_eq := by rw [b.position_eq, List.length_cons]
  closed := b.closed

def close (b : Bus ε) : Bus ε := { b with closed := true }

/-- The position of the oldest item still kept. -/
def oldest (b : Bus ε) : Nat := b.position - b.size

/-- The item at a position. -/
def item? (b : Bus ε) (position : Nat) : Option ε :=
  if position < b.position then b.newestFirst[b.position - 1 - position]? else none

/-- What the receiver at a position gets, and its position afterwards. -/
def receive (b : Bus ε) (position : Nat) : Reception ε × Nat :=
  if position < b.oldest then (.lagged (b.oldest - position), b.oldest)
  else match b.item? position with
    | some e => (.item e, position + 1)
    | none => (if b.closed then .closed else .empty, position)

/-- The items from a position on, oldest first. -/
def itemsFrom (b : Bus ε) (position : Nat) : List ε :=
  (b.newestFirst.take (b.position - position)).reverse

/-- Everything that the receiver at a position gets until there is nothing more, and its position
afterwards. -/
def receiveAll (b : Bus ε) (position : Nat) : List (Reception ε) × Nat :=
  let items := (b.itemsFrom (max position b.oldest)).map .item
  (if position < b.oldest then .lagged (b.oldest - position) :: items else items,
    max position b.position)

theorem one_le_keptFor (capacity : Nat) : 1 ≤ keptFor capacity := by
  unfold keptFor
  split
  · exact Nat.le_refl 1
  · exact Nat.one_le_two_pow

/-- A bus keeps at least what it was asked to keep. -/
theorem le_keptFor (capacity : Nat) : capacity ≤ keptFor capacity := by
  unfold keptFor
  split
  · assumption
  · have := Nat.lt_log2_self (n := capacity - 1)
    rw [Nat.pow_eq]
    omega

/-- A bus keeps less than twice what it was asked to keep. -/
theorem keptFor_lt {capacity : Nat} (h : 1 ≤ capacity) : keptFor capacity < 2 * capacity := by
  unfold keptFor
  split
  · omega
  · have := Nat.log2_self_le (n := capacity - 1) (by omega)
    rw [Nat.pow_eq, Nat.pow_succ]
    omega

/-- A bus can be had exactly if its capacity can be counted and its places can be addressed. -/
theorem checkCapacity_eq_ok_iff {capacity : Nat} : checkCapacity capacity = .ok () ↔
    capacity ≤ mostPlaces ∧ placeSize * keptFor capacity ≤ addressable := by
  unfold checkCapacity
  split
  · simp [Nat.not_le.2 ‹mostPlaces < capacity›]
  · split <;> simp_all

theorem length_published (b : Bus ε) : b.published.length = b.position := by
  rw [published, List.length_reverse, b.position_eq]

@[simp] theorem published_publish (b : Bus ε) (e : ε) :
    (b.publish e).published = b.published ++ [e] := by
  simp [published, publish]

@[simp] theorem position_publish (b : Bus ε) (e : ε) :
    (b.publish e).position = b.position + 1 := rfl

@[simp] theorem size_publish (b : Bus ε) (e : ε) : (b.publish e).size = b.size := rfl

theorem item?_eq (b : Bus ε) (position : Nat) : b.item? position = b.published[position]? := by
  unfold item?
  split
  · next h =>
    rw [b.position_eq] at h ⊢
    rw [published, List.getElem?_reverse h]
  · next h =>
    rw [← length_published] at h
    exact (List.getElem?_eq_none (Nat.le_of_not_lt h)).symm

theorem itemsFrom_eq (b : Bus ε) (position : Nat) :
    b.itemsFrom position = b.published.drop position := by
  rw [itemsFrom, published, List.reverse_take, b.position_eq]
  by_cases h : position ≤ b.newestFirst.length
  · rw [Nat.sub_sub_self h]
  · have h : b.newestFirst.length ≤ position := by omega
    rw [Nat.sub_eq_zero_of_le h, Nat.sub_zero, List.drop_eq_nil_of_le (by simp),
      List.drop_eq_nil_of_le (by simpa using h)]

theorem oldest_le_position (b : Bus ε) : b.oldest ≤ b.position := Nat.sub_le _ _

/-- A receiver that has fallen behind the oldest item kept is told how many it has lost. -/
theorem receive_of_lt_oldest {b : Bus ε} {position : Nat} (h : position < b.oldest) :
    b.receive position = (.lagged (b.oldest - position), b.oldest) := by
  simp [receive, h]

/-- A receiver that has not fallen behind gets the item at its position. -/
theorem receive_of_getElem? {b : Bus ε} {position : Nat} {e : ε} (h : b.oldest ≤ position)
    (he : b.published[position]? = some e) : b.receive position = (.item e, position + 1) := by
  simp [receive, Nat.not_lt.2 h, item?_eq, he]

/-- A receiver that has seen everything stays where it is. -/
theorem receive_of_position_le {b : Bus ε} {position : Nat} (h : b.position ≤ position) :
    b.receive position = (if b.closed then .closed else .empty, position) := by
  have hold : ¬ position < b.oldest := Nat.not_lt.2 (Nat.le_trans b.oldest_le_position h)
  have hnone : b.item? position = none := if_neg (Nat.not_lt.2 h)
  simp [receive, hold, hnone]

/-- What a receiver gets is the item that was published at its position. -/
theorem fst_receive_eq_item_iff {b : Bus ε} {position : Nat} {e : ε} :
    (b.receive position).1 = .item e ↔
      b.oldest ≤ position ∧ b.published[position]? = some e := by
  unfold receive
  rw [item?_eq]
  split
  · next h => simp [Nat.not_le.2 h]
  · next h =>
    split
    · next he => simp [Nat.not_lt.1 h, he]
    · next he => by_cases hc : b.closed <;> simp [hc, he]

/-- A receiver never moves back. -/
theorem le_snd_receive (b : Bus ε) (position : Nat) : position ≤ (b.receive position).2 := by
  unfold receive
  split
  · next h => exact Nat.le_of_lt h
  · split
    · exact Nat.le_succ position
    · exact Nat.le_refl position

/-- To receive everything is to receive one thing and then everything else. -/
theorem receiveAll_of_receive_item {b : Bus ε} {position : Nat} {e : ε}
    (h : (b.receive position).1 = .item e) :
    b.receiveAll position =
      (.item e :: (b.receiveAll (position + 1)).1, (b.receiveAll (position + 1)).2) := by
  obtain ⟨hold, he⟩ := fst_receive_eq_item_iff.1 h
  obtain ⟨hlt, he⟩ := List.getElem?_eq_some_iff.1 he
  have hpos : position + 1 ≤ b.position := by rwa [← length_published]
  simp only [receiveAll, itemsFrom_eq, if_neg (Nat.not_lt.2 hold),
    if_neg (Nat.not_lt.2 (Nat.le_succ_of_le hold)), Nat.max_eq_left hold,
    Nat.max_eq_left (Nat.le_succ_of_le hold), Nat.max_eq_right hpos,
    Nat.max_eq_right (Nat.le_of_succ_le hpos), List.drop_eq_getElem_cons hlt, he, List.map_cons]

/-- A receiver that has fallen behind is told so first, and then receives everything that is still
kept. -/
theorem receiveAll_of_lt_oldest {b : Bus ε} {position : Nat} (h : position < b.oldest) :
    b.receiveAll position =
      (.lagged (b.oldest - position) :: (b.receiveAll b.oldest).1, (b.receiveAll b.oldest).2) := by
  have hpos := Nat.le_trans (Nat.le_of_lt h) b.oldest_le_position
  simp [receiveAll, h, Nat.max_eq_right (Nat.le_of_lt h), Nat.max_eq_right hpos,
    Nat.max_eq_right b.oldest_le_position]

/-- A receiver that has seen everything receives nothing. -/
theorem receiveAll_of_position_le {b : Bus ε} {position : Nat} (h : b.position ≤ position) :
    b.receiveAll position = ([], position) := by
  have hold := Nat.le_trans b.oldest_le_position h
  simp [receiveAll, itemsFrom, Nat.not_lt.2 hold, Nat.max_eq_left hold, Nat.max_eq_left h,
    Nat.sub_eq_zero_of_le h]

end Bus

end CompileWatch
