import CompileWatch.Artifact

/-!
# The result slot

A slot holds the artifact published last. Its floor is the generation of the newest attempt that
has been started. An artifact is accepted only if its attempt is not cancelled, it is not below the
floor, and it is newer than what the slot holds. Everything here happens under the lock of the slot,
one call after the other.
-/
namespace CompileWatch

structure Slot (α : Type) where
  latest : Option (Artifact α) := none
  floor : Generation := 0

/-- How an offer to the slot ends. -/
inductive PublishOutcome where
  | published
  | cancelled
  | superseded
  deriving DecidableEq, Repr

def PublishOutcome.name : PublishOutcome → String
  | .published => "published"
  | .cancelled => "cancelled"
  | .superseded => "superseded"

namespace Slot

variable {α : Type}

/-- The generation of the artifact in the slot, 0 if there is none. -/
def stored (s : Slot α) : Generation :=
  match s.latest with
  | none => 0
  | some a => a.generation

/-- Notes that the attempt `g` has been started. -/
def advance (s : Slot α) (g : Generation) : Slot α := { s with floor := max s.floor g }

/-- How an offer of the artifact would end. -/
def verdict (s : Slot α) (a : Artifact α) (cancelled : Bool) : PublishOutcome :=
  if cancelled then .cancelled
  else if a.generation < s.floor ∨ a.generation ≤ s.stored then .superseded
  else .published

/-- Offers the artifact of an attempt to the slot. -/
def publish (s : Slot α) (a : Artifact α) (cancelled : Bool) : PublishOutcome × Slot α :=
  match s.verdict a cancelled with
  | .published => (.published, { s with latest := some a })
  | refusal => (refusal, s)

/-- The artifact in the slot, if it was compiled from exactly this text. -/
def find? (s : Slot α) (code : String) : Option (Artifact α) :=
  s.latest.filter (·.isFor code)

@[simp] theorem floor_advance (s : Slot α) (g : Generation) :
    (s.advance g).floor = max s.floor g := rfl

@[simp] theorem latest_advance (s : Slot α) (g : Generation) :
    (s.advance g).latest = s.latest := rfl

@[simp] theorem stored_advance (s : Slot α) (g : Generation) :
    (s.advance g).stored = s.stored := rfl

@[simp] theorem fst_publish (s : Slot α) (a : Artifact α) (c : Bool) :
    (s.publish a c).1 = s.verdict a c := by
  unfold publish; split <;> simp_all

@[simp] theorem floor_publish (s : Slot α) (a : Artifact α) (c : Bool) :
    (s.publish a c).2.floor = s.floor := by
  unfold publish; split <;> rfl

theorem latest_publish (s : Slot α) (a : Artifact α) (c : Bool) :
    (s.publish a c).2.latest = if s.verdict a c = .published then some a else s.latest := by
  unfold publish; split <;> simp_all

theorem verdict_eq_published_iff {s : Slot α} {a : Artifact α} {c : Bool} :
    s.verdict a c = .published ↔
      c = false ∧ s.floor ≤ a.generation ∧ s.stored < a.generation := by
  grind [verdict]

theorem verdict_eq_cancelled_iff {s : Slot α} {a : Artifact α} {c : Bool} :
    s.verdict a c = .cancelled ↔ c = true := by
  grind [verdict]

theorem verdict_eq_superseded_iff {s : Slot α} {a : Artifact α} {c : Bool} :
    s.verdict a c = .superseded ↔
      c = false ∧ (a.generation < s.floor ∨ a.generation ≤ s.stored) := by
  grind [verdict]

theorem publish_of_published {s : Slot α} {a : Artifact α} {c : Bool}
    (h : s.verdict a c = .published) :
    s.publish a c = (.published, { s with latest := some a }) := by
  simp [publish, h]

/-- An offer that is refused leaves the slot as it is. -/
theorem publish_of_refused {s : Slot α} {a : Artifact α} {c : Bool}
    (h : s.verdict a c ≠ .published) : s.publish a c = (s.verdict a c, s) := by
  unfold publish; split <;> simp_all

theorem find?_eq_some_iff {s : Slot α} {code : String} {a : Artifact α} :
    s.find? code = some a ↔ s.latest = some a ∧ a.source = code := by
  simp [find?, Option.filter_eq_some_iff]

end Slot

end CompileWatch
