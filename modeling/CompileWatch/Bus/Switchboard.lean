import CompileWatch.Bus.Basic

/-!
# Named receivers

A bus together with receivers that are known by name.
-/
namespace CompileWatch

structure Switchboard (ε : Type) where
  bus : Bus ε
  /-- The position of each receiver. -/
  receivers : List (String × Nat) := []

namespace Switchboard

variable {ε : Type}

def publish (s : Switchboard ε) (e : ε) : Switchboard ε := { s with bus := s.bus.publish e }

def close (s : Switchboard ε) : Switchboard ε := { s with bus := s.bus.close }

def has (s : Switchboard ε) (name : String) : Bool := s.receivers.any (·.1 == name)

/-- Takes the receiver of that name away. -/
def unsubscribe (s : Switchboard ε) (name : String) : Switchboard ε :=
  { s with receivers := s.receivers.filter (·.1 != name) }

/-- Moves the receiver of that name, old or new, to a position. -/
def place (s : Switchboard ε) (name : String) (position : Nat) : Switchboard ε :=
  { s with receivers := (name, position) :: (s.unsubscribe name).receivers }

/-- A new receiver, in place of an older one of the same name: it sees only what comes later. -/
def subscribe (s : Switchboard ε) (name : String) : Switchboard ε :=
  s.place name s.bus.position

def position? (s : Switchboard ε) (name : String) : Option Nat := s.receivers.lookup name

/-- The next reception of a named receiver; nothing for a name that is not known. -/
def receive (s : Switchboard ε) (name : String) : Option (Reception ε) × Switchboard ε :=
  match s.position? name with
  | none => (none, s)
  | some position =>
    let (got, next) := s.bus.receive position
    (some got, s.place name next)

/-- All that a named receiver can get now, and then why there is no more. -/
def drain (s : Switchboard ε) (name : String) :
    List (Reception ε) × Option (Reception ε) × Switchboard ε :=
  match s.position? name with
  | none => ([], none, s)
  | some position =>
    let (items, next) := s.bus.receiveAll position
    (items, some (s.bus.receive next).1, s.place name next)

end Switchboard

end CompileWatch
