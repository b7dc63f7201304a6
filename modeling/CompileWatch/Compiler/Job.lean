import CompileWatch.Compiler.Script

/-!
# Compile jobs

A compile that occupies a worker: it goes on until it is held in one of its phases or comes to its
end. A held job goes on when it is released, or, if it heeds its token, when that is cancelled.
-/
namespace CompileWatch

/-- The compile of `source` for the attempt `generation`. -/
structure CompileJob where
  generation : Nat
  source : String
  /-- The phase in which the job is held. -/
  heldIn : Option CompilePhase := none
  released : Bool := false
  deriving Repr

namespace CompileJob

/-- How far a job gets in one go. -/
inductive Progress where
  | held (phase : CompilePhase)
  | ended (outcome : Outcome Int64)

/-- One go of a job: how far it gets, the calls of the two phases that it makes, and whether it
cancels its own token. -/
structure Go where
  progress : Progress
  parseCalls : Nat := 0
  compileCalls : Nat := 0
  cancelsItself : Bool := false

/-- Can the job go on, given whether its token is cancelled? -/
def isRunnable (book : ScriptBook) (cancelled : Bool) (job : CompileJob) : Bool :=
  match job.heldIn with
  | none => true
  | some _ => job.released || (cancelled && book.heeds job.source)

/-- The second phase from its beginning, or from where it was held. -/
def compilePart (book : ScriptBook) (cancelled : Bool) (parsed : ScriptBook.Parsed) : Go :=
  let call := book.compiler.compile parsed cancelled
  { progress := .ended call.outcome, cancelsItself := call.cancelsItself }

/-- The first phase after any waiting, and the second one up to its own waiting. -/
def parsePart (book : ScriptBook) (cancelled : Bool) (job : CompileJob) : Go :=
  match (book.compiler.parse job.source cancelled).outcome with
  | .refused why => { progress := .ended (.refused why) }
  | .panicked payload => { progress := .ended (.panicked payload) }
  | .value parsed =>
    if book.hold? job.source = some .compile then
      { progress := .held .compile, compileCalls := 1 }
    else { compilePart book cancelled parsed with compileCalls := 1 }

/-- Lets a runnable job go on. -/
def go (book : ScriptBook) (cancelled : Bool) (job : CompileJob) : Go :=
  match job.heldIn with
  | none =>
    if book.hold? job.source = some .parse then { progress := .held .parse, parseCalls := 1 }
    else { parsePart book cancelled job with parseCalls := 1 }
  | some .parse => parsePart book cancelled job
  | some .compile =>
    match (book.compiler.parse job.source cancelled).outcome with
    | .value parsed => compilePart book cancelled parsed
    | .refused why => { progress := .ended (.refused why) }
    | .panicked payload => { progress := .ended (.panicked payload) }

end CompileJob

end CompileWatch
