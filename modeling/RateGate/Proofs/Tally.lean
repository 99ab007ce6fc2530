import Mathlib.Tactic.SplitIfs
import RateGate.Meter.Tally
import RateGate.Proofs.Windows

/-!
# Rates of tallies

For an identifier a meter has a tally or none. `rateOf` is the rate that either case shows at a
slot, and `add` is the tally that one more event leaves in either case.

The case analysis over windows is done here once.

* `rateOfHit_eq`: the rate reported for an event is the rate of the tally that the event leaves. So
  one formula serves reads and events.
* `toNat_rateOf_add`: an event raises the rate at its own slot by one.
* `toNat_rate_le`: no rate exceeds what the tally holds.
* `rateOf_of_stale`, `add_of_stale`: a tally whose window started two windows before the slot's or
  earlier acts as if it were absent. So nothing is lost when it is dropped.
-/

namespace RateGate

/-- The sliding rate in exact numbers. The share never exceeds `previous`, so only the sum can reach
the largest word. -/
theorem toNat_slidingRate (width current previous elapsed : Word) :
    (slidingRate width current previous elapsed).toNat =
      min (current.toNat + previous.toNat * (width.toNat - elapsed.toNat) / width.toNat)
        18446744073709551615 := by
  rw [slidingRate, Word.toNat_satAdd, Word.toNat_clamp, Word.toNat_satSub]
  omega

theorem toNat_slidingRate_le (width current previous elapsed : Word) :
    (slidingRate width current previous elapsed).toNat ≤ current.toNat + previous.toNat := by
  have hshare := mul_sub_div_le previous.toNat width.toNat elapsed.toNat
  rw [toNat_slidingRate]
  omega

namespace Slot

theorem some_eq_before_iff (width now start : Word) :
    some start = (ofReading width now).before ↔
      start.toNat + width.toNat = (ofReading width now).start.toNat := by
  rw [eq_comm]
  exact Word.sub?_eq_some_iff

theorem start_add_elapsed (width now : Word) :
    (ofReading width now).start.toNat + now.toNat % width.toNat = now.toNat := by
  rw [toNat_start, Nat.mul_comm]
  exact Nat.div_add_mod _ _

theorem reading_lt_start_add_width {width : Word} (hw : 0 < width.toNat) (now : Word) :
    now.toNat < (ofReading width now).start.toNat + width.toNat := by
  have hslot := start_add_elapsed width now
  have hmod := Nat.mod_lt now.toNat hw
  omega

end Slot

namespace Tally

/-- The rate at a slot of an identifier with this tally, or with none. -/
def rateOf (width : Word) (slot : Slot) (tally? : Option Tally) : Word :=
  tally?.elim 0 (rate width slot)

/-- The tally of an identifier after one more event at a slot. -/
def add (slot : Slot) (tally? : Option Tally) : Tally :=
  tally?.elim (first slot.start) (hit slot)

@[simp] theorem rateOf_none (width : Word) (slot : Slot) : rateOf width slot none = 0 := rfl

@[simp] theorem rateOf_some (width : Word) (slot : Slot) (t : Tally) :
    rateOf width slot (some t) = t.rate width slot := rfl

@[simp] theorem add_none (slot : Slot) : add slot none = first slot.start := rfl

@[simp] theorem add_some (slot : Slot) (t : Tally) : add slot (some t) = t.hit slot := rfl

theorem toNat_rate_le (width : Word) (slot : Slot) (t : Tally) :
    (t.rate width slot).toNat ≤ t.current.toNat + t.previous.toNat := by
  by_cases hlate : slot.start ≤ t.start
  · rw [rate, if_pos hlate]
    exact toNat_slidingRate_le ..
  · rw [rate, if_neg hlate]
    split
    · have hle := toNat_slidingRate_le width 0 t.current slot.elapsed
      have hzero : (0 : Word).toNat = 0 := rfl
      omega
    · exact Nat.zero_le _

/-! ## Events -/

/-- An event moves a tally of an earlier window to the slot's, and no other. -/
theorem start_hit (slot : Slot) (t : Tally) :
    (t.hit slot).start = if slot.start ≤ t.start then t.start else slot.start := by
  unfold hit
  split <;> rfl

theorem start_le_add (slot : Slot) (tally? : Option Tally) :
    slot.start ≤ (add slot tally?).start := by
  cases tally? with
  | none => exact UInt64.le_refl _
  | some t =>
    rw [add_some, start_hit]
    split_ifs with h
    · exact h
    · exact UInt64.le_refl _

/-- The rate reported for an event is that of the tally it leaves. -/
theorem rateOfHit_eq (width : Word) (slot : Slot) (t : Tally) :
    t.rateOfHit width slot = (t.hit slot).rate width slot := by
  have hle := start_le_add slot (some t)
  rw [add_some] at hle
  rw [rateOfHit, rate, if_pos hle]
  congr 1
  by_cases hlate : slot.start < t.start
  · have hstart : (t.hit slot).start = t.start := by
      rw [start_hit, if_pos (UInt64.le_of_lt hlate)]
    rw [if_pos hlate, hstart, if_neg (UInt64.ne_of_lt hlate).symm]
  · have hstart : (t.hit slot).start = slot.start := by
      rw [start_hit]
      split_ifs with h
      · exact UInt64.le_antisymm (UInt64.not_lt.1 hlate) h
      · rfl
    rw [if_neg hlate, if_pos hstart]

theorem rate_first (width : Word) (slot : Slot) : (first slot.start).rate width slot = 1 := by
  rw [← UInt64.toNat_inj]
  simp [rate, first, toNat_slidingRate]

/-- An event raises the rate at its own slot by one, up to the largest word. -/
theorem toNat_rateOf_add (width : Word) (slot : Slot) (tally? : Option Tally) :
    ((add slot tally?).rate width slot).toNat =
      min ((rateOf width slot tally?).toNat + 1) 18446744073709551615 := by
  cases tally? with
  | none =>
    rw [add_none, rate_first]
    rfl
  | some t =>
    simp only [add_some, rateOf_some, hit]
    by_cases hle : slot.start ≤ t.start
    · simp only [rate, if_pos hle, toNat_slidingRate, Word.toNat_satAdd, UInt64.reduceToNat]
      generalize t.previous.toNat * _ / width.toNat = share
      omega
    · simp only [rate, if_neg hle, UInt64.le_refl, if_true, toNat_slidingRate, UInt64.reduceToNat]
      split_ifs with hbefore
      · simp only [toNat_slidingRate, UInt64.reduceToNat]
        omega
      · simp

/-! ## Stale tallies -/

/-- The tally's window started two widths before the slot's or earlier. -/
def Stale (width : Word) (slot : Slot) (t : Tally) : Prop :=
  t.start.toNat + 2 * width.toNat ≤ slot.start.toNat

variable {width now : Word} {t : Tally}

theorem Stale.not_le (hw : 0 < width.toNat) (h : t.Stale width (.ofReading width now)) :
    ¬(Slot.ofReading width now).start ≤ t.start := by
  rw [Stale] at h
  rw [UInt64.le_iff_toNat_le]
  omega

theorem Stale.ne_before (hw : 0 < width.toNat) (h : t.Stale width (.ofReading width now)) :
    some t.start ≠ (Slot.ofReading width now).before := by
  rw [Stale] at h
  rw [Ne, Slot.some_eq_before_iff]
  omega

/-- A stale tally shows the rate of an absent one. -/
theorem rateOf_of_stale (hw : 0 < width.toNat) (h : t.Stale width (.ofReading width now)) :
    rateOf width (.ofReading width now) (some t) = rateOf width (.ofReading width now) none := by
  rw [rateOf_some, rate, if_neg (h.not_le hw), if_neg (h.ne_before hw), rateOf_none]

/-- An event leaves of a stale tally what it leaves of an absent one. -/
theorem add_of_stale (hw : 0 < width.toNat) (h : t.Stale width (.ofReading width now)) :
    add (.ofReading width now) (some t) = add (.ofReading width now) none := by
  rw [add_some, hit, if_neg (h.not_le hw), if_neg (h.ne_before hw), add_none, first]

end Tally

end RateGate
