import RateGate.Word

/-!
# Windows and tallies

Time in milliseconds is cut into windows of one width that begin at multiples of the width. A
reading of the clock falls into a slot: the window that holds it, the window before, and how far the
reading has come.

A tally holds the counts of one identifier: the events of the window it last counted into, and the
events of the window just before that one. The rate at a slot is the count of its window and a share
of the count before, the share that a window of the same width ending at the reading still covers.

A tally never moves back. A reading before its window is taken as the very beginning of that window.
-/

namespace RateGate

/-- Where a reading falls among the windows. -/
structure Slot where
  /-- Where the window of the reading starts. -/
  start : Word
  /-- Where the window before starts, if there is one. -/
  before : Option Word
  /-- How much of the window has passed. -/
  elapsed : Word
  deriving DecidableEq

/-- The slot of a reading among windows of this width. -/
def Slot.ofReading (width now : Word) : Slot :=
  let elapsed := now % width
  let start := now - elapsed
  ⟨start, Word.sub? start width, elapsed⟩

/-- The rate of `current` events in a window and `previous` in the window before, seen when
`elapsed` of the window has passed. -/
def slidingRate (width current previous elapsed : Word) : Word :=
  let weight := Word.satSub width elapsed
  Word.satAdd current (Word.clamp (previous.toNat * weight.toNat / width.toNat))

/-- What has been counted for one identifier. -/
structure Tally where
  /-- Events in the window that starts at `start`. -/
  current : Word
  /-- Events in the window just before. -/
  previous : Word
  start : Word
  deriving DecidableEq

namespace Tally

/-- The tally of one event in the window that starts at `start`. -/
def first (start : Word) : Tally := ⟨1, 0, start⟩

/-- The rate at a slot. A tally of the slot's window or a later one counts in full; a tally of the
window before has only its share; an older one has no effect. -/
def rate (width : Word) (slot : Slot) (t : Tally) : Word :=
  if slot.start ≤ t.start then
    slidingRate width t.current t.previous (if t.start = slot.start then slot.elapsed else 0)
  else if some t.start = slot.before then
    slidingRate width 0 t.current slot.elapsed
  else
    0

/-- The tally after one more event at a slot. A tally of an earlier window is carried over into the
slot's window first. -/
def hit (slot : Slot) (t : Tally) : Tally :=
  if slot.start ≤ t.start then
    { t with current := Word.satAdd t.current 1 }
  else
    ⟨1, if some t.start = slot.before then t.current else 0, slot.start⟩

/-- The rate to report for an event at a slot that turned `old` into `old.hit slot`. -/
def rateOfHit (width : Word) (slot : Slot) (old : Tally) : Word :=
  slidingRate width (old.hit slot).current (old.hit slot).previous
    (if slot.start < old.start then 0 else slot.elapsed)

end Tally

namespace Slot

/-- The slot's window starts at the last multiple of the width that is not after the reading. -/
theorem toNat_start (width now : Word) :
    (ofReading width now).start.toNat = now.toNat / width.toNat * width.toNat := by
  have hmod : (now % width).toNat = now.toNat % width.toNat := UInt64.toNat_mod ..
  have hle : now % width ≤ now := by
    rw [UInt64.le_iff_toNat_le, hmod]
    exact Nat.mod_le _ _
  have := Nat.div_add_mod now.toNat width.toNat
  rw [ofReading, UInt64.toNat_sub_of_le _ _ hle, hmod, Nat.mul_comm]
  omega

theorem toNat_elapsed (width now : Word) :
    (ofReading width now).elapsed.toNat = now.toNat % width.toNat :=
  UInt64.toNat_mod ..

end Slot

end RateGate
