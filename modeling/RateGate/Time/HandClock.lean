import RateGate.Time.Instant

/-!
# Clocks driven by hand

A hand-driven clock moves only when told to. It can be set to any instant, and advanced by a span
unless that passes the last instant. A failed advance leaves the time as it was (`time_advance`),
but the clock is marked by it for good.
-/

namespace RateGate

/-- A clock that moves only when told to. -/
structure HandClock where
  time : Instant
  /-- Whether an advance of the clock has ever failed. -/
  overran : Bool
  deriving DecidableEq

namespace HandClock

/-- A clock that has never been moved. -/
def start (time : Instant) : HandClock := ⟨time, false⟩

/-- The clock moved to a time. -/
def set (c : HandClock) (time : Instant) : HandClock := { c with time }

/-- The clock moved forward, or marked if it cannot be. -/
def advance (c : HandClock) (span : Span) : HandClock :=
  match c.time.plus? span with
  | some later => c.set later
  | none => { c with overran := true }

/-- The time moves by the span, or not at all. -/
theorem time_advance (c : HandClock) (span : Span) :
    (c.advance span).time = (c.time.plus? span).getD c.time := by
  unfold advance
  cases c.time.plus? span <;> rfl

end HandClock

end RateGate
