/-!
# Limits

Some sizes can be asked for but not be had. Such a request is refused as a whole, before anything
happens; each limit stands beside the thing that it limits.
-/
namespace CompileWatch

/-- Why a size cannot be had. -/
inductive LimitError where
  /-- A span is longer than the longest one. -/
  | spanTooLong
  /-- A bus has more places than can be counted. -/
  | busTooLarge
  /-- The places of a bus take more memory than can be addressed. -/
  | busTooHeavy
  /-- A queue has more than the most places that a queue can have. -/
  | queueTooLong (most : Nat)
  /-- There is nobody to do the work. -/
  | noWorkers
  deriving DecidableEq, Repr

def LimitError.message : LimitError → String
  | spanTooLong => "overflow in Duration::new"
  | busTooLarge => "broadcast channel capacity exceeded `usize::MAX / 2`"
  | busTooHeavy => "capacity overflow"
  | queueTooLong most =>
    "a semaphore may not have more than MAX_PERMITS permits (" ++ toString most ++ ")"
  | noWorkers => "Max blocking threads cannot be set to 0"

end CompileWatch
