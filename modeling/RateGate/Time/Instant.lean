import RateGate.Time.Span

/-!
# Instants

A point in time is a whole number of seconds since the UNIX epoch, possibly negative, and the
nanoseconds after that second. So the instant one nanosecond before the epoch is second `-1` and
999999999 nanoseconds.

`ticks` counts an instant in nanoseconds. `ticks_plus?` and `plus?_eq_none_iff` say that adding a
span is addition of ticks as long as the seconds fit, and fails otherwise.
-/

namespace RateGate

/-- A point in time, given by its second and the part of that second already gone. -/
structure Instant where
  secs : Int64
  nanos : Nanos
  deriving DecidableEq

namespace Instant

def epoch : Instant := ⟨0, noNanos⟩

/-- The last instant that there is. -/
def last : Instant := ⟨Int64.maxValue, ⟨999999999, by decide⟩⟩

/-- Nanoseconds since the epoch. -/
def ticks (t : Instant) : Int := 1000000000 * t.secs.toInt + t.nanos.val

/-- Whole milliseconds since the epoch: zero before it, the largest word when there are too many. -/
def epochMillis (t : Instant) : Word := Word.clamp (t.ticks / 1000000).toNat

/-- The instant with this second and part of it, if the second is in range. -/
def ofSecs? (secs : Int) (nanos : Nanos) : Option Instant :=
  if h : Int64.minValue.toInt ≤ secs ∧ secs ≤ Int64.maxValue.toInt then
    some ⟨Int64.ofIntLE secs h.1 h.2, nanos⟩
  else
    none

/-- The instant so many milliseconds after the epoch, or before it if negative. -/
def ofMillis? (millis : Int) : Option Instant :=
  ofSecs? (millis / 1000) ⟨1000000 * (millis % 1000).toNat, by omega⟩

/-- The instant a span later, if it is in range. -/
def plus? (t : Instant) (s : Span) : Option Instant :=
  let nanos := t.nanos.val + s.nanos.val
  ofSecs? (t.secs.toInt + s.secs.toNat + (nanos / 1000000000 : Nat))
    ⟨nanos % 1000000000, Nat.mod_lt _ (by decide)⟩

theorem ticks_ofSecs? {secs : Int} {nanos : Nanos} {t : Instant} (h : ofSecs? secs nanos = some t) :
    t.ticks = 1000000000 * secs + nanos.val := by
  unfold ofSecs? at h
  split at h
  · cases h
    rw [ticks, Int64.toInt_ofIntLE]
  · cases h

theorem ofSecs?_eq_none_iff {secs : Int} {nanos : Nanos} :
    ofSecs? secs nanos = none ↔
      secs < Int64.minValue.toInt ∨ Int64.maxValue.toInt < secs := by
  unfold ofSecs?
  split
  · exact iff_of_false nofun (by omega)
  · exact iff_of_true rfl (by omega)

theorem ticks_plus? {t u : Instant} {s : Span} (h : t.plus? s = some u) :
    u.ticks = t.ticks + s.ticks := by
  rw [ticks_ofSecs? h]
  simp only [ticks, Span.ticks]
  omega

/-- Adding a span fails exactly when the sum passes the last instant. -/
theorem plus?_eq_none_iff {t : Instant} {s : Span} :
    t.plus? s = none ↔ last.ticks < t.ticks + s.ticks := by
  have hlow := t.secs.le_toInt
  have ht := t.nanos.isLt
  have hs := s.nanos.isLt
  have hmin : Int64.minValue.toInt = -9223372036854775808 := rfl
  have hmax : Int64.maxValue.toInt = 9223372036854775807 := rfl
  simp only [plus?, ofSecs?_eq_none_iff, last, ticks, Span.ticks, hmin, hmax]
  omega

end Instant

end RateGate
