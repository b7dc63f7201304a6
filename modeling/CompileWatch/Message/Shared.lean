import CompileWatch.Message.Log
import CompileWatch.Steps

/-!
# A log with several clients

Calls of a message log, and clients that make them at the same time. A call goes through while its
client has the lock of the log, and one client at a time has the lock. A batch is written one
diagnostic after the other, so that the others may find the lock taken in the midst of it.
-/
namespace CompileWatch

/-- What a client can ask of a log. -/
inductive LogCall where
  | push (d : Diagnostic)
  | extend (ds : List Diagnostic)
  | messages (severity : Severity)
  | drain
  | size
  | isEmpty
  deriving DecidableEq, Repr

/-- What the calls that only look, or take away, are answered with. -/
inductive LogAnswer where
  | messages (texts : List String)
  | drained (ds : List Diagnostic)
  | size (n : Nat)
  | isEmpty (answer : Bool)
  deriving DecidableEq, Repr

namespace LogCall

/-- What a call adds to the log. -/
def written : LogCall → List Diagnostic
  | push d => [d]
  | extend ds => ds
  | messages _ | drain | size | isEmpty => []

/-- The calls of the log that a sink in front of it makes of a call. A sink that does not take
batches passes them on one diagnostic at a time. -/
def passedOn (takesBatches : Bool) : LogCall → List LogCall
  | extend ds => if takesBatches then [extend ds] else ds.map push
  | call => [call]

end LogCall

/-- What an answer takes out of the log. -/
def LogAnswer.taken : LogAnswer → List Diagnostic
  | drained ds => ds
  | messages _ | size _ | isEmpty _ => []

namespace MessageLog

/-- The answer to a call, if it is one that is answered, and the log that it leaves. -/
def serve (l : MessageLog) : LogCall → Option LogAnswer × MessageLog
  | .push d => (none, l.push d)
  | .extend ds => (none, l.extend ds)
  | .messages severity => (some (.messages (l.messages severity)), l)
  | .drain => (some (.drained l.drain.1), l.drain.2)
  | .size => (some (.size l.size), l)
  | .isEmpty => (some (.isEmpty l.isEmpty), l)

/-- What is left to do of a call when all that it writes is written. -/
def conclude (l : MessageLog) : LogCall → Option LogAnswer × MessageLog
  | .push _ | .extend _ => (none, l)
  | call => l.serve call

/-- Serves the calls of clients one after the other. -/
def serveAll (l : MessageLog) : List (Nat × LogCall) → List (Nat × LogAnswer) × MessageLog
  | [] => ([], l)
  | (client, call) :: rest =>
    let (answer, next) := l.serve call
    let (answers, last) := next.serveAll rest
    (answer.toList.map (client, ·) ++ answers, last)

/-- Once its diagnostics are written, a call ends as if it had been served at a stroke. -/
theorem conclude_extend_written (l : MessageLog) (call : LogCall) :
    (l.extend call.written).conclude call = l.serve call := by
  cases call with
  | push d => simp [conclude, serve, LogCall.written, ← pushEach_eq_extend, pushEach]
  | extend ds => rfl
  | messages | drain | size | isEmpty => simp only [conclude, LogCall.written, extend_nil]

end MessageLog

/-- A client that has the lock, its call, and what the call has still to write. -/
structure LogHold where
  client : Nat
  call : LogCall
  unwritten : List Diagnostic

/-- A log behind a lock, with the clients that call it. -/
structure SharedLog where
  log : MessageLog := {}
  /-- The calls that each client has still to make. -/
  ahead : Nat → List LogCall
  hold : Option LogHold := none
  /-- The calls that took the lock, oldest first. -/
  order : List (Nat × LogCall) := []
  /-- The answers that the clients were given, oldest first. -/
  answers : List (Nat × LogAnswer) := []

namespace SharedLog

/-- What can happen next. -/
inductive Action where
  /-- The client takes the lock for its next call. -/
  | take (client : Nat)
  /-- The call under way writes its next diagnostic. -/
  | write
  /-- The call under way is answered, and the lock is free again. -/
  | release
  deriving DecidableEq, Repr

/-- The log is empty, and each client has a list of calls to make. -/
def start (programs : Nat → List LogCall) : SharedLog where
  ahead := programs

/-- The client has the lock for a call, and then has the others to make. -/
def takenBy (s : SharedLog) (client : Nat) (call : LogCall) (rest : List LogCall) : SharedLog :=
  { s with
    ahead := fun i => if i = client then rest else s.ahead i
    hold := some ⟨client, call, call.written⟩
    order := s.order ++ [(client, call)] }

/-- The call of the client is over. -/
def concluded (s : SharedLog) (client : Nat) (call : LogCall) : SharedLog :=
  { s with
    log := (s.log.conclude call).2
    hold := none
    answers := s.answers ++ (s.log.conclude call).1.toList.map (client, ·) }

/-- Performs an action, if it can happen now. -/
def step? (s : SharedLog) : Action → Option SharedLog
  | .take client =>
    match s.hold, s.ahead client with
    | none, call :: rest => some (s.takenBy client call rest)
    | _, _ => none
  | .write =>
    match s.hold with
    | some ⟨client, call, d :: ds⟩ =>
      some { s with log := s.log.push d, hold := some ⟨client, call, ds⟩ }
    | _ => none
  | .release =>
    match s.hold with
    | some ⟨client, call, []⟩ => some (s.concluded client call)
    | _ => none

/-- The state after a list of actions, if each could happen in its turn. -/
def steps? : SharedLog → List Action → Option SharedLog
  | s, [] => some s
  | s, a :: rest => (s.step? a).bind (·.steps? rest)

theorem performs_steps? : Performs step? steps? := ⟨fun _ => rfl, fun _ _ _ => rfl⟩

/-- What the call under way has still to write. -/
def unwritten (s : SharedLog) : List Diagnostic := (s.hold.map (·.unwritten)).getD []

/-- All that drains have given out, oldest first. -/
def takenOut (s : SharedLog) : List Diagnostic := s.answers.flatMap (·.2.taken)

end SharedLog

end CompileWatch
