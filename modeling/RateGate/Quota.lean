import RateGate.Http.Fields
import RateGate.Time.Instant

/-!
# Quotas

A quota is what a response says about the limit: the limit itself, how much of it remains, and in
how many seconds the window ends. It is written into four header fields, and whatever those fields
held before is replaced.

What remains is the difference of limit and rate as signed 64-bit numbers, so it is negative once
the limit is exceeded.
-/

namespace RateGate

structure Quota where
  limit : Word
  /-- Whole seconds of the window length. -/
  windowSecs : Word
  remaining : Int
  /-- Seconds until the window ends, rounded up. -/
  resetSecs : Word
  deriving DecidableEq

namespace Quota

/-- The window length in milliseconds; a shorter window counts as one. -/
def width (window : Span) : Word := if window.millis = 0 then 1 else window.millis

/-- Milliseconds from a reading to the end of its window. -/
def millisLeft (window : Span) (now : Word) : Word := width window - now % width window

/-- The quota after a request that brought the rate to `rate` at a time. -/
def make (limit rate : Word) (window : Span) (time : Instant) : Quota where
  limit := limit
  windowSecs := window.secs
  remaining := Word.signedSatSub (Word.signed limit) (Word.signed rate)
  resetSecs := (millisLeft window time.epochMillis + 999) / 1000

/-- The limit and the window it holds for, as in `100;w=60`. -/
def policy (q : Quota) : String := toString q.limit.toNat ++ ";w=" ++ toString q.windowSecs.toNat

theorem isPlain_policy (q : Quota) : isPlain q.policy = true := by
  simp only [policy, isPlain_append, isPlain_nat, Bool.and_true, Bool.true_and]
  decide

theorem width_pos (window : Span) : 0 < (width window).toNat := by
  unfold width
  split
  · decide
  · rename_i h
    exact Nat.pos_of_ne_zero fun hzero => h (UInt64.toNat_inj.1 hzero)

/-- Write the quota into the fields of a response. -/
def stamp (q : Quota) (fields : Fields) : Fields :=
  (((fields.insert .rateLimit (.ofNat q.limit.toNat)).insert .ratePolicy
    (.ofPlain q.policy q.isPlain_policy)).insert .rateRemaining (.ofInt q.remaining)).insert
      .rateReset (.ofNat q.resetSecs.toNat)

end Quota

/-- Ask to come back after a whole window. -/
def Fields.setRetryAfter (fields : Fields) (window : Span) : Fields :=
  fields.insert .retryAfter (.ofNat window.secs.toNat)

end RateGate
