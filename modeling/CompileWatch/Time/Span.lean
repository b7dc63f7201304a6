import CompileWatch.Limit

/-!
# Spans of time

A span counts whole nanoseconds. Its text uses the largest of the units s, ms, µs and ns in which
it is at least one, with as many decimals as it needs and no more.
-/
namespace CompileWatch

/-- A length of time. -/
structure Span where
  nanos : Nat
  deriving DecidableEq, Repr, Inhabited

namespace Span

def ofMillis (n : Nat) : Span := ⟨n * 1000000⟩

def ofSecs (secs nanos : Nat) : Span := ⟨secs * 1000000000 + nanos⟩

/-- The longest span that can be configured: all that a 64-bit count of seconds can say. -/
def longest : Span := ofSecs (Nat.pow 2 64 - 1) 999999999

/-- The span of so many seconds and nanoseconds, unless it is longer than the longest one. -/
def ofSecs? (secs nanos : Nat) : Except LimitError Span :=
  if (ofSecs secs nanos).nanos ≤ longest.nanos then .ok (ofSecs secs nanos)
  else .error .spanTooLong

def secs (s : Span) : Nat := s.nanos / 1000000000

/-- The nanoseconds beyond the whole seconds. -/
def subsecNanos (s : Span) : Nat := s.nanos % 1000000000

/-- The whole milliseconds in the span. -/
def millis (s : Span) : Nat := s.nanos / 1000000

/-- The ticks of a millisecond clock until a timer of this span fires: at the first tick at or
after its end. -/
def ticks (s : Span) : Nat := (s.nanos + 999999) / 1000000

instance : Max Span := ⟨fun a b => ⟨max a.nanos b.nanos⟩⟩

instance : Min Span := ⟨fun a b => ⟨min a.nanos b.nanos⟩⟩

/-- A span that is not refused is the one that was asked for. -/
theorem ofSecs?_eq_ok_iff {secs nanos : Nat} {s : Span} :
    ofSecs? secs nanos = .ok s ↔ s = ofSecs secs nanos ∧ s.nanos ≤ longest.nanos := by
  unfold ofSecs?
  split <;> grind

@[simp] theorem nanos_max (a b : Span) : (max a b).nanos = max a.nanos b.nanos := rfl

@[simp] theorem nanos_min (a b : Span) : (min a b).nanos = min a.nanos b.nanos := rfl

@[simp] theorem ticks_ofMillis (n : Nat) : (ofMillis n).ticks = n := by
  simp only [ticks, ofMillis]; omega

/-- Drops the zeros at the end. -/
def trimZeros (digits : List Char) : List Char :=
  (digits.reverse.dropWhile (· = '0')).reverse

/-- A count of the `places`-th decimal place as a decimal number: `scaled 1500 3` is `1.5`. -/
def scaled (n places : Nat) : List Char :=
  let digits := Nat.toDigits 10 (n % Nat.pow 10 places)
  let decimals := trimZeros (List.replicate (places - digits.length) '0' ++ digits)
  Nat.toDigits 10 (n / Nat.pow 10 places) ++ if decimals.isEmpty then [] else '.' :: decimals

/-- The span in its largest fitting unit. -/
def text (s : Span) : String :=
  if 1000000000 ≤ s.nanos then String.ofList (scaled s.nanos 9) ++ "s"
  else if 1000000 ≤ s.nanos then String.ofList (scaled s.nanos 6) ++ "ms"
  else if 1000 ≤ s.nanos then String.ofList (scaled s.nanos 3) ++ "µs"
  else String.ofList (scaled s.nanos 0) ++ "ns"

end Span

end CompileWatch
