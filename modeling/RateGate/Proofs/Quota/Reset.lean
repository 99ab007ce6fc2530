import Mathlib.Order.Bounds.Defs
import RateGate.Meter.Basic
import RateGate.Proofs.Tally
import RateGate.Quota

/-!
# When a window ends

A quota says in how many seconds the window ends, rounded up. It reckons the end of the window by
itself, in milliseconds that are left; a meter never looks ahead and only finds, at a later time, that
the reading is of a later window.

**Theorem (`resetSecs_isLeast`).** The two agree. The seconds that a quota tells are the least after
which the meter is in a later window, and they are at least one and at most the window length,
rounded up.

Whole seconds add whole milliseconds to a reading, also where the time is between two milliseconds
(`toNat_epochMillis_of_plus?`). So the claim is one about the rest of a division
(`div_lt_add_div_iff`): the window changes exactly when the milliseconds that are left have passed.
-/

namespace RateGate

/-- A sum is in a later block than its first part exactly if the second part reaches the end of the
block. -/
theorem div_lt_add_div_iff {n k width : Nat} (hw : 0 < width) :
    n / width < (n + k) / width ↔ width - n % width ≤ k := by
  have hn := Nat.div_add_mod n width
  have hmod := Nat.mod_lt n hw
  rw [Nat.lt_iff_add_one_le, Nat.le_div_iff_mul_le hw, Nat.add_mul, Nat.one_mul, Nat.mul_comm]
  omega

/-! ## Seconds later -/

theorem Span.ticks_ofSecs (secs : Word) : (Span.ofSecs secs).ticks = 1000000000 * secs.toNat := rfl

namespace Instant

variable {time later : Instant} {secs : Word}

theorem toNat_epochMillis (time : Instant) :
    time.epochMillis.toNat = min (time.ticks / 1000000).toNat 18446744073709551615 :=
  Word.toNat_clamp _

theorem toNat_epochMillis_of_plus? (htime : 0 ≤ time.ticks)
    (h : time.plus? (.ofSecs secs) = some later) :
    later.epochMillis.toNat =
      min ((time.ticks / 1000000).toNat + 1000 * secs.toNat) 18446744073709551615 := by
  have hticks := ticks_plus? h
  rw [Span.ticks_ofSecs] at hticks
  rw [toNat_epochMillis, hticks]
  omega

theorem exists_plus?_of_lt
    (htop : (time.ticks + 1000000000 * secs.toNat) / 1000000 < 18446744073709551615) :
    ∃ later, time.plus? (.ofSecs secs) = some later := by
  have hlast : last.ticks = 9223372036854775807999999999 := by decide
  rw [← Option.ne_none_iff_exists', Ne, plus?_eq_none_iff, Span.ticks_ofSecs, hlast]
  omega

end Instant

theorem Slot.start_lt_start_iff {width : Word} (hw : 0 < width.toNat) (now later : Word) :
    (ofReading width now).start < (ofReading width later).start ↔
      now.toNat / width.toNat < later.toNat / width.toNat := by
  rw [UInt64.lt_iff_toNat_lt, toNat_start, toNat_start, Nat.mul_lt_mul_right hw]

namespace Quota

/-! ## The seconds of a quota -/

theorem width_window (c : Meter.Config) : width c.window = c.width :=
  if_neg c.window_ne_zero

theorem sub?_mod_width (window : Span) (now : Word) :
    Word.sub? (width window) (now % width window) = some (millisLeft window now) := by
  have hle : now % width window ≤ width window := by
    rw [UInt64.le_iff_toNat_le, UInt64.toNat_mod]
    exact Nat.le_of_lt (Nat.mod_lt _ (width_pos window))
  rw [Word.sub?, if_pos hle, millisLeft]

theorem toNat_millisLeft (window : Span) (now : Word) :
    (millisLeft window now).toNat =
      (width window).toNat - now.toNat % (width window).toNat := by
  have hexact := Word.sub?_eq_some_iff.1 (sub?_mod_width window now)
  rw [UInt64.toNat_mod] at hexact
  omega

theorem toNat_millisLeft_add {window : Span}
    (hwidth : (width window).toNat + 999 ≤ 18446744073709551615) (now : Word) :
    (millisLeft window now + 999).toNat = (millisLeft window now).toNat + 999 := by
  have hleft := toNat_millisLeft window now
  have hround : (999 : Word).toNat = 999 := rfl
  rw [UInt64.toNat_add, hround, Nat.mod_eq_of_lt]
  omega

/-- The seconds to the end of the window are the milliseconds to it, rounded up. -/
theorem toNat_resetSecs (limit rate : Word) {window : Span} (time : Instant)
    (hwidth : (width window).toNat + 999 ≤ 18446744073709551615) :
    (make limit rate window time).resetSecs.toNat =
      ((width window).toNat - time.epochMillis.toNat % (width window).toNat + 999) / 1000 := by
  have hsecond : (1000 : Word).toNat = 1000 := rfl
  show ((millisLeft window time.epochMillis + 999) / 1000).toNat = _
  rw [UInt64.toNat_div, toNat_millisLeft_add hwidth, toNat_millisLeft, hsecond]

example : (make 1 1 (.ofSecs 60) ⟨120, 1000000⟩).resetSecs = 60 := by decide

/-- **The end of a window.** For any meter, any limit and rate, and any time from the epoch on, as
long as the window and the end of it are within the range of words: the seconds that a quota tells
are the least whole number of seconds after which the meter is in a later window. They are at least
one and at most the window length, rounded up. -/
theorem resetSecs_isLeast (m : Meter) (limit rate : Word) (time : Instant)
    (hwidth : m.config.width.toNat + 999 ≤ 18446744073709551615) (htime : 0 ≤ time.ticks)
    (htop : (time.ticks +
      1000000000 * (make limit rate m.config.window time).resetSecs.toNat) / 1000000 <
        18446744073709551615) :
    IsLeast {secs : Word | ∃ later, time.plus? (.ofSecs secs) = some later ∧
        (m.slot time.epochMillis).start < (m.slot later.epochMillis).start}
      (make limit rate m.config.window time).resetSecs ∧
    1 ≤ (make limit rate m.config.window time).resetSecs.toNat ∧
    (make limit rate m.config.window time).resetSecs.toNat ≤
      (m.config.width.toNat + 999) / 1000 := by
  have hw := m.config.width_pos
  have hreset := toNat_resetSecs limit rate time ((width_window m.config).symm ▸ hwidth)
  rw [width_window] at hreset
  generalize (make limit rate m.config.window time).resetSecs = reset at hreset htop ⊢
  have hnow : time.epochMillis.toNat = (time.ticks / 1000000).toNat := by
    rw [Instant.toNat_epochMillis]
    omega
  have hmod := Nat.mod_lt time.epochMillis.toNat hw
  have hlater {secs : Word} {later : Instant} (h : time.plus? (.ofSecs secs) = some later) :
      later.epochMillis.toNat =
        min (time.epochMillis.toNat + 1000 * secs.toNat) 18446744073709551615 :=
    hnow ▸ Instant.toNat_epochMillis_of_plus? htime h
  refine ⟨⟨?_, ?_⟩, by omega, by omega⟩
  · obtain ⟨later, hplus⟩ := Instant.exists_plus?_of_lt htop
    refine ⟨later, hplus, ?_⟩
    have hexact : later.epochMillis.toNat = time.epochMillis.toNat + 1000 * reset.toNat := by
      rw [hlater hplus]
      omega
    rw [Meter.slot, Meter.slot, Slot.start_lt_start_iff hw, hexact, div_lt_add_div_iff hw]
    omega
  · rintro secs ⟨later, hplus, hlt⟩
    rw [Meter.slot, Meter.slot, Slot.start_lt_start_iff hw, hlater hplus] at hlt
    -- A reading that a word cannot hold counts as the last one, and that is no later.
    have hpassed := Nat.lt_of_lt_of_le hlt (Nat.div_le_div_right (Nat.min_le_left _ _))
    rw [div_lt_add_div_iff hw] at hpassed
    rw [UInt64.le_iff_toNat_le]
    omega

/-- A meter whose windows are two and a half seconds long. -/
def halvesMeter : Meter := .fresh ⟨.ofMillis 2500, .ofSecs 5, by decide, by decide⟩

/-- A time in the second window of that meter, just after a millisecond. -/
def betweenMillis : Instant := ⟨2, ⟨600000001, by decide⟩⟩

/-- Of 2400 milliseconds that are left the quota tells three seconds, and two are not enough. -/
theorem resetSecs_isLeast_halvesMeter :
    halvesMeter.config.width.toNat + 999 ≤ 18446744073709551615 ∧ 0 ≤ betweenMillis.ticks ∧
      (betweenMillis.ticks + 1000000000 * (3 : Word).toNat) / 1000000 < 18446744073709551615 ∧
      (make 5 1 halvesMeter.config.window betweenMillis).resetSecs = 3 ∧
      IsLeast {secs : Word | ∃ later, betweenMillis.plus? (.ofSecs secs) = some later ∧
        (halvesMeter.slot betweenMillis.epochMillis).start <
          (halvesMeter.slot later.epochMillis).start} 3 := by
  have hwidth : halvesMeter.config.width.toNat + 999 ≤ 18446744073709551615 := by decide
  have htime : 0 ≤ betweenMillis.ticks := by decide
  have hreset : (make 5 1 halvesMeter.config.window betweenMillis).resetSecs = 3 := by decide
  have htop : (betweenMillis.ticks + 1000000000 * (3 : Word).toNat) / 1000000 <
      18446744073709551615 := by decide
  have hleast := resetSecs_isLeast halvesMeter 5 1 betweenMillis hwidth htime (hreset ▸ htop)
  exact ⟨hwidth, htime, htop, hreset, hreset ▸ hleast.1⟩

end Quota

end RateGate
