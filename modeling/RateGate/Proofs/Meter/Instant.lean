import Mathlib.Data.List.Induction
import RateGate.Proofs.Meter.Answer

/-!
# Calls at one instant

What becomes of the rate of an identifier while time stands still, for any meter, whatever it has
been through. A first call may sweep, a tally may still have to move to the window of the instant;
none of it shows.

* `toNat_rate_read_reply`: a count of the identifier raises the rate by one, and no other call
  changes it.
* `rate_eq_rate_read_reply`: a count is told the rate that a read right after it is told.
* `toNat_rate_count`: that is one more than a read instead of the count is told.
* `toNat_rate_read_run`: after any calls at the instant the rate has grown by the counts among them.
-/

namespace RateGate.Meter

variable (m : Meter) (time : Instant) (id : Identifier)

theorem rate_read :
    (m.read id time).rate =
      Tally.rateOf m.config.width (m.slot time.epochMillis) (m.seen time.epochMillis id) := by
  have hrate := m.rate_reply (.read id time)
  rw [get?_reply] at hrate
  exact hrate

variable {m time} {c : Call}

theorem rate_read_reply (hc : c.reading = time.epochMillis) :
    ((m.reply c).meter.read id time).rate =
      Tally.rateOf m.config.width (m.slot c.reading) ((m.reply c).meter.register.get? id) := by
  rw [rate_read, config_reply, slot, config_reply, ← hc, seen_reply]
  rfl

/-- The answer to a call is what a read at the same instant is told after it. -/
theorem rate_eq_rate_read_reply (hc : c.reading = time.epochMillis) :
    (m.reply c).rate = ((m.reply c).meter.read c.id time).rate := by
  rw [rate_read_reply c.id hc, rate_reply]

/-- Each count of an identifier raises its rate at the instant by one, as far as a word can hold it.
Other calls do not change it. -/
theorem toNat_rate_read_reply (hc : c.reading = time.epochMillis) :
    ((m.reply c).meter.read id time).rate.toNat =
      min ((m.read id time).rate.toNat + if c.counts id then 1 else 0) 18446744073709551615 := by
  rw [rate_read_reply id hc, get?_reply, rate_read, ← hc]
  split_ifs
  · exact Tally.toNat_rateOf_add ..
  · have hlt := (Tally.rateOf m.config.width (m.slot c.reading) (m.seen c.reading id)).toNat_lt
    omega

theorem toNat_rate_count (m : Meter) (id : Identifier) (time : Instant) :
    (m.reply (.count id time)).rate.toNat =
      min ((m.read id time).rate.toNat + 1) 18446744073709551615 := by
  have hcounts : Call.counts id (.count id time) = true := decide_eq_true rfl
  rw [rate_eq_rate_read_reply rfl]
  refine (toNat_rate_read_reply id rfl).trans ?_
  rw [if_pos hcounts]

/-- Calls at one instant raise the rate of an identifier by the counts of it among them. -/
theorem toNat_rate_read_run {calls : List Call}
    (hcalls : ∀ c ∈ calls, c.reading = time.epochMillis) :
    ((m.run calls).read id time).rate.toNat =
      min ((m.read id time).rate.toNat + calls.countP (Call.counts id)) 18446744073709551615 := by
  induction calls using List.reverseRecOn with
  | nil =>
    have hlt := (m.read id time).rate.toNat_lt
    rw [run_nil, List.countP_nil]
    omega
  | append_singleton calls c ih =>
    rw [List.forall_mem_append] at hcalls
    have hc := hcalls.2 c (List.mem_singleton_self c)
    rw [run_append, run_cons, run_nil, toNat_rate_read_reply id hc, ih hcalls.1,
      List.countP_append, List.countP_singleton]
    omega

/-- **Reads and counts agree.** Whatever a meter has been through, and at any time: a count is told
one more than a read in its place is told, as far as a word can hold it, and a read right after the
count is told the same as the count. -/
theorem count_agrees_with_read (m : Meter) (id : Identifier) (time : Instant) :
    (m.reply (.count id time)).rate.toNat =
      min ((m.reply (.read id time)).rate.toNat + 1) 18446744073709551615 ∧
    ((m.reply (.count id time)).meter.reply (.read id time)).rate =
      (m.reply (.count id time)).rate :=
  ⟨m.toNat_rate_count id time, (rate_eq_rate_read_reply rfl).symm⟩

end RateGate.Meter
