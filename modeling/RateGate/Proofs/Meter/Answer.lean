import RateGate.Meter.Basic
import RateGate.Proofs.Tally

/-!
# Answers of a meter

What a call answers and what it leaves behind, for any meter and any reading.

* `get?_reply`: a call adds its event, if it has one, to what the sweep before it left. Of any other
  identifier the meter holds what that sweep left, which is `seen`.
* `rate_reply`: the answer is the rate of what the meter holds after the call.
* `seen_reply`: at one reading a second sweep drops nothing, so a later call at the reading of an
  earlier one sees just what that one left.
* `drops_iff`: a sweep drops the tallies that are three windows old, or as old as a word can say.
-/

namespace RateGate

namespace Call

/-- The identifier that a call is about. -/
def id : Call → Identifier
  | .read id _ | .count id _ => id

/-- The time of a call in milliseconds. -/
def reading : Call → Word
  | .read _ time | .count _ time => time.epochMillis

/-- Whether a call counts an event of an identifier. -/
def counts (id : Identifier) : Call → Bool
  | .read _ _ => false
  | .count other _ => decide (other = id)

theorem id_eq_of_counts {c : Call} {id : Identifier} (h : c.counts id = true) : c.id = id := by
  cases c with
  | read other time => cases h
  | count other time => exact of_decide_eq_true h

end Call

namespace Meter

/-- What a call at a reading finds of an identifier, once it has swept. -/
def seen (m : Meter) (now : Word) (id : Identifier) : Option Tally :=
  (m.sweep now).2.register.get? id

variable {m : Meter} {now : Word} {t : Tally}

/-! ## What a sweep drops -/

/-- A sweep drops the tallies whose window is three windows old, or as old as a word can say. -/
theorem drops_iff :
    m.drops now t = true ↔ m.register.sweepDue now = true ∧
      t.start.toNat + min (3 * m.config.width.toNat) 18446744073709551615 ≤ now.toNat := by
  have hthree : retention.toNat = 3 := rfl
  rw [drops, Bool.and_eq_true, Option.any_eq_true]
  refine and_congr_right fun _ => ?_
  constructor
  · rintro ⟨cutoff, hcut, hle⟩
    rw [cutoff?, Word.sub?_eq_some_iff, Word.toNat_satMul, hthree] at hcut
    rw [decide_eq_true_eq, UInt64.le_iff_toNat_le] at hle
    omega
  · intro hage
    cases hcut : m.cutoff? now with
    | none =>
      rw [cutoff?, Word.sub?_eq_none_iff, Word.toNat_satMul, hthree] at hcut
      omega
    | some cutoff =>
      refine ⟨cutoff, rfl, ?_⟩
      rw [cutoff?, Word.sub?_eq_some_iff, Word.toNat_satMul, hthree] at hcut
      rw [decide_eq_true_eq, UInt64.le_iff_toNat_le]
      omega

theorem drops_of_start_le (h : (m.slot now).start ≤ t.start) : m.drops now t = false := by
  have hw := m.config.width_pos
  have hwidth := m.config.width.toNat_lt
  have hreading := Slot.reading_lt_start_add_width hw now
  rw [UInt64.le_iff_toNat_le, slot] at h
  rw [Bool.eq_false_iff, Ne, drops_iff]
  rintro ⟨-, hage⟩
  omega

/-- Where three windows are a word, or before the last reading there is, no younger tally is
dropped. -/
theorem add_three_width_le_of_drops
    (hexact : now.toNat < 18446744073709551615 ∨ 3 * m.config.width.toNat ≤ 18446744073709551615)
    (h : m.drops now t = true) : t.start.toNat + 3 * m.config.width.toNat ≤ now.toNat := by
  have hage := (drops_iff.1 h).2
  omega

theorem stale_of_add_three_width_le (h : t.start.toNat + 3 * m.config.width.toNat ≤ now.toNat) :
    t.Stale m.config.width (m.slot now) := by
  have hreading := Slot.reading_lt_start_add_width m.config.width_pos now
  rw [Tally.Stale, slot]
  omega

/-! ## One call -/

theorem seen_eq_some_iff {id : Identifier} :
    m.seen now id = some t ↔ m.register.get? id = some t ∧ m.drops now t = false := by
  rw [seen, get?_sweep, Option.filter_eq_some_iff, Bool.not_eq_true']

/-- A call counts its event onto what the sweep left, and changes nothing else. -/
theorem get?_reply (m : Meter) (c : Call) (id : Identifier) :
    (m.reply c).meter.register.get? id =
      if c.counts id then some (Tally.add (m.slot c.reading) (m.seen c.reading id))
      else m.seen c.reading id := by
  cases c with
  | read other time =>
    rw [reply, read, meter_readMillis]
    rfl
  | count other time =>
    rw [reply, count, meter_countMillis, get?_put]
    by_cases hid : other = id
    · subst hid
      simp only [Call.counts, decide_true, if_true]
      rfl
    · simp only [Call.counts, hid, decide_false, if_false, Bool.false_eq_true]
      rfl

/-- A call answers the rate of what it leaves. -/
theorem rate_reply (m : Meter) (c : Call) :
    (m.reply c).rate =
      Tally.rateOf m.config.width (m.slot c.reading) ((m.reply c).meter.register.get? c.id) := by
  rw [get?_reply]
  cases c with
  | read id time =>
    simp only [reply, read, readMillis, Call.counts, Call.id, Call.reading, seen]
    cases (m.sweep time.epochMillis).2.register.get? id <;> rfl
  | count id time =>
    simp only [reply, count, countMillis, Call.counts, Call.id, Call.reading, seen]
    cases (m.sweep time.epochMillis).2.register.get? id with
    | none => exact (Tally.rate_first ..).symm
    | some t => exact Tally.rateOfHit_eq ..

/-! ## What calls are told -/

/-- The rates told for an identifier, call by call. -/
def told (m : Meter) (id : Identifier) (calls : List Call) : List Word :=
  ((calls.zip (m.replies calls)).filter fun p => p.1.id = id).map fun p => p.2.rate

theorem told_cons (m : Meter) (id : Identifier) (c : Call) (calls : List Call) :
    m.told id (c :: calls) =
      (if c.id = id then [(m.reply c).rate] else []) ++ (m.reply c).meter.told id calls := by
  rw [told, replies, List.zip_cons_cons, List.filter_cons]
  by_cases h : c.id = id <;> simp [h, told]

/-! ## Calls at one reading -/

theorem nextSweep_reply (m : Meter) (c : Call) :
    (m.reply c).meter.register.nextSweep = (m.sweep c.reading).2.register.nextSweep := by
  cases c with
  | read id time =>
    rw [reply, read, meter_readMillis]
    rfl
  | count id time =>
    rw [reply, count, meter_countMillis]
    rfl

theorem toNat_nextSweep_reply (m : Meter) (c : Call) :
    (m.reply c).meter.register.nextSweep.toNat =
      if m.register.sweepDue c.reading then
        min (c.reading.toNat + m.config.period.toNat) 18446744073709551615
      else m.register.nextSweep.toNat := by
  rw [nextSweep_reply, nextSweep_sweep]
  split_ifs
  · exact Word.toNat_satAdd ..
  · rfl

/-- At the reading of a call no later sweep drops more than the sweep of that call. -/
theorem drops_of_drops_reply {c : Call} (h : (m.reply c).meter.drops c.reading t = true) :
    m.drops c.reading t = true := by
  have hcut : (m.reply c).meter.cutoff? c.reading = m.cutoff? c.reading := by
    rw [cutoff?, cutoff?, config_reply]
  rw [drops, hcut, Register.sweepDue, nextSweep_reply, nextSweep_sweep] at h
  by_cases hdue : m.register.sweepDue c.reading = true
  · rw [Bool.and_eq_true] at h
    rw [drops, hdue, Bool.true_and]
    exact h.2
  · rw [if_neg hdue] at h
    exact h

/-- A call leaves nothing that a sweep at the same reading would drop. -/
theorem seen_reply (m : Meter) (c : Call) (id : Identifier) :
    (m.reply c).meter.seen c.reading id = (m.reply c).meter.register.get? id := by
  cases hget : (m.reply c).meter.register.get? id with
  | none => rw [seen, get?_sweep, hget, Option.filter_none]
  | some t =>
    refine seen_eq_some_iff.2 ⟨hget, Bool.eq_false_iff.2 fun hdrops => ?_⟩
    have hbefore := drops_of_drops_reply hdrops
    rw [get?_reply] at hget
    split at hget
    · cases hget
      have hstart := Tally.start_le_add (m.slot c.reading) (m.seen c.reading id)
      rw [drops_of_start_le hstart] at hbefore
      cases hbefore
    · rw [(seen_eq_some_iff.1 hget).2] at hbefore
      cases hbefore

end Meter

end RateGate
