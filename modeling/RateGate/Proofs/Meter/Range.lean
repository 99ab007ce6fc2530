import RateGate.Proofs.Meter.Answer
import RateGate.Proofs.Meter.Register
import RateGate.Proofs.Quota
import RateGate.Proofs.Quota.Reset

/-!
# Arithmetic in range

Words wrap in a subtraction and stop at the ends in the operations that saturate. A rate or a quota
would be wrong, and nobody told, if one of them did so in the middle of its computation.

**Theorem (`arithmetic_in_range`).** They never do. A configuration is accepted exactly if both
spans hold a millisecond, and that is all it takes: in every history of an accepted meter, at any
times, each subtraction is exact, no divisor is zero, each product fits in twice a word, and a share
is no larger than the count it is a share of. Only the sum of a rate may reach the largest word. The
same holds for every quota whose window leaves room to round up to seconds.

* `Operands` are the counts and the elapsed time that an answer is made of. `rate_reply_eq_operands`
  says that there is no other arithmetic in an answer.
* `toNat_elapsed_lt`: the elapsed time among them is always less than the width, as it is the
  elapsed time of a slot or zero. All the rest follows from this bound (`Operands.inRange`).
-/

namespace RateGate

/-- The counts that a rate is made of, and how much of the window has passed. -/
structure Operands where
  current : Word
  previous : Word
  elapsed : Word
  deriving DecidableEq

namespace Operands

/-- What is left of the window. -/
def weight (width : Word) (o : Operands) : Word := Word.satSub width o.elapsed

/-- What is left of the previous count. -/
def share (width : Word) (o : Operands) : Nat :=
  o.previous.toNat * (o.weight width).toNat / width.toNat

def rate (width : Word) (o : Operands) : Word := slidingRate width o.current o.previous o.elapsed

/-- The arithmetic of a rate stays in range. -/
structure InRange (width : Word) (o : Operands) : Prop where
  /-- The exact difference, so nothing is cut off at zero. -/
  weight_eq : Word.sub? width o.elapsed = some (o.weight width)
  weight_pos : 1 ≤ (o.weight width).toNat
  weight_le : o.weight width ≤ width
  /-- The product is less than the 128th power of two. -/
  product_lt : o.previous.toNat * (o.weight width).toNat < 340282366920938463463374607431768211456
  share_le : o.share width ≤ o.previous.toNat
  /-- The share is a word. -/
  share_eq : (Word.clamp (o.share width)).toNat = o.share width
  toNat_rate : (o.rate width).toNat =
    min (o.current.toNat + o.previous.toNat * (width.toNat - o.elapsed.toNat) / width.toNat)
      18446744073709551615

theorem toNat_weight (width : Word) (o : Operands) :
    (o.weight width).toNat = width.toNat - o.elapsed.toNat :=
  Word.toNat_satSub _ _

theorem share_le (width : Word) (o : Operands) : o.share width ≤ o.previous.toNat := by
  rw [share, toNat_weight]
  exact mul_sub_div_le _ _ _

theorem inRange {width : Word} {o : Operands} (h : o.elapsed.toNat < width.toNat) :
    o.InRange width where
  weight_eq := by
    rw [Word.sub?_eq_some_iff, toNat_weight]
    omega
  weight_pos := by
    rw [toNat_weight]
    omega
  weight_le := by
    rw [UInt64.le_iff_toNat_le, toNat_weight]
    exact Nat.sub_le _ _
  product_lt := Nat.mul_lt_mul'' o.previous.toNat_lt (o.weight width).toNat_lt
  share_le := o.share_le width
  share_eq := by
    have hshare := o.share_le width
    have hprevious := o.previous.toNat_lt
    rw [Word.toNat_clamp]
    omega
  toNat_rate := toNat_slidingRate ..

end Operands

/-- The arithmetic of a slot stays in range. -/
structure Slot.InRange (width now : Word) : Prop where
  width_ne_zero : width ≠ 0
  elapsed_lt : (ofReading width now).elapsed < width
  /-- The exact difference, so nothing wraps. -/
  start_eq : Word.sub? now (ofReading width now).elapsed = some (ofReading width now).start

theorem Slot.inRange {width : Word} (hw : 0 < width.toNat) (now : Word) : InRange width now where
  width_ne_zero := by
    rintro rfl
    exact Nat.lt_irrefl 0 hw
  elapsed_lt := by
    rw [UInt64.lt_iff_toNat_lt, toNat_elapsed]
    exact Nat.mod_lt _ hw
  start_eq := by
    rw [Word.sub?_eq_some_iff, toNat_elapsed]
    exact start_add_elapsed width now

/-! ## What an answer is made of -/

namespace Tally

/-- What the rate of a tally at a slot is made of; nothing, if the tally is too old for a rate. -/
def operands? (slot : Slot) (t : Tally) : Option Operands :=
  if slot.start ≤ t.start then
    some ⟨t.current, t.previous, if t.start = slot.start then slot.elapsed else 0⟩
  else if some t.start = slot.before then
    some ⟨0, t.current, slot.elapsed⟩
  else
    none

/-- What the rate reported for an event at a slot is made of. -/
def operandsOfHit (slot : Slot) (t : Tally) : Operands :=
  ⟨(t.hit slot).current, (t.hit slot).previous, if slot.start < t.start then 0 else slot.elapsed⟩

theorem rate_eq_operands (width : Word) (slot : Slot) (t : Tally) :
    t.rate width slot = (t.operands? slot).elim 0 (Operands.rate width) := by
  rw [rate, operands?]
  split_ifs <;> rfl

theorem rateOfHit_eq_operands (width : Word) (slot : Slot) (t : Tally) :
    t.rateOfHit width slot = (t.operandsOfHit slot).rate width := rfl

end Tally

namespace Meter

/-- What the answer to a call is made of; nothing, if there is no tally that it depends on. -/
def operands? (m : Meter) : Call → Option Operands
  | .read id time =>
    (m.seen time.epochMillis id).bind (Tally.operands? (m.slot time.epochMillis))
  | .count id time =>
    (m.seen time.epochMillis id).map (Tally.operandsOfHit (m.slot time.epochMillis))

/-- An answer is the rate of its operands. Without any, it is that of the event alone. -/
theorem rate_reply_eq_operands (m : Meter) (c : Call) :
    (m.reply c).rate =
      (m.operands? c).elim (if c.counts c.id then 1 else 0) (Operands.rate m.config.width) := by
  cases c with
  | read id time =>
    simp only [reply, read, readMillis, operands?, seen]
    cases (m.sweep time.epochMillis).2.register.get? id with
    | none => rfl
    | some t => exact Tally.rate_eq_operands ..
  | count id time =>
    simp only [reply, count, countMillis, operands?, seen, Call.counts, Call.id, decide_true]
    cases (m.sweep time.epochMillis).2.register.get? id with
    | none => rfl
    | some t => exact Tally.rateOfHit_eq_operands ..

theorem toNat_elapsed_lt {m : Meter} {c : Call} {o : Operands} (h : m.operands? c = some o) :
    o.elapsed.toNat < m.config.width.toNat := by
  have hw := m.config.width_pos
  have helapsed (now : Word) : (m.slot now).elapsed.toNat < m.config.width.toNat :=
    UInt64.lt_iff_toNat_lt.1 (Slot.inRange hw now).elapsed_lt
  cases c with
  | read id time =>
    obtain ⟨t, -, ht⟩ := Option.bind_eq_some_iff.1 h
    rw [Tally.operands?] at ht
    split_ifs at ht <;> cases ht
    · exact helapsed _
    · exact hw
    · exact helapsed _
  | count id time =>
    obtain ⟨t, -, rfl⟩ := Option.map_eq_some_iff.1 h
    rw [Tally.operandsOfHit]
    split_ifs
    · exact hw
    · exact helapsed _

/-- The arithmetic of a call stays in range. -/
structure InRange (m : Meter) (c : Call) : Prop where
  slot : Slot.InRange m.config.width c.reading
  operands : ∀ o, m.operands? c = some o →
    o.InRange m.config.width ∧ (m.reply c).rate = o.rate m.config.width
  no_operands : m.operands? c = none → (m.reply c).rate = if c.counts c.id then 1 else 0
  /-- The exact difference of the tallies before and after a sweep. -/
  removed : ∀ cutoff next, (m.register.discard cutoff next).1 +
    (m.register.discard cutoff next).2.size = m.register.size

theorem inRange (m : Meter) (c : Call) : m.InRange c where
  slot := Slot.inRange m.config.width_pos _
  operands := by
    intro o ho
    refine ⟨Operands.inRange (toNat_elapsed_lt ho), ?_⟩
    rw [rate_reply_eq_operands, ho, Option.elim_some]
  no_operands := by
    intro hnone
    rw [rate_reply_eq_operands, hnone, Option.elim_none]
  removed cutoff next := m.register.dropped_add_size_edit (.discard cutoff next)

end Meter

/-! ## Quotas -/

namespace Quota

/-- The arithmetic of a quota stays in range. -/
structure InRange (limit rate : Word) (window : Span) (time : Instant) : Prop where
  width_ne_zero : width window ≠ 0
  /-- The exact difference, so nothing wraps. -/
  millisLeft_eq : Word.sub? (width window) (time.epochMillis % width window) =
    some (millisLeft window time.epochMillis)
  rounded_eq : (millisLeft window time.epochMillis + 999).toNat =
    (millisLeft window time.epochMillis).toNat + 999
  /-- The difference of two signed numbers is one. -/
  remaining_mem : -Word.signedTop - 1 ≤ Word.signed limit - Word.signed rate ∧
    Word.signed limit - Word.signed rate ≤ Word.signedTop
  remaining_eq : (make limit rate window time).remaining = Word.signed limit - Word.signed rate

theorem toNat_width (window : Span) : (width window).toNat = max window.millis.toNat 1 := by
  have hone : (1 : Word).toNat = 1 := rfl
  rw [width]
  split_ifs with h
  · rw [h]
    rfl
  · have hpos : window.millis.toNat ≠ 0 := fun hzero => h (UInt64.toNat_inj.1 hzero)
    omega

theorem inRange {window : Span} (hwidth : max window.millis.toNat 1 + 999 ≤ 18446744073709551615)
    (limit rate : Word) (time : Instant) : InRange limit rate window time where
  width_ne_zero := by
    intro hzero
    have hpos := width_pos window
    rw [hzero] at hpos
    exact Nat.lt_irrefl 0 hpos
  millisLeft_eq := sub?_mod_width window time.epochMillis
  rounded_eq := toNat_millisLeft_add (toNat_width window ▸ hwidth) time.epochMillis
  remaining_mem := by
    simp only [Word.signed, Word.signedTop]
    omega
  remaining_eq := remaining_make limit rate window time

end Quota

namespace Meter

/-! ## All histories -/

theorem Config.exists_make_iff (window interval : Span) :
    (∃ c, Config.make window interval = .ok c) ↔
      1000000 ≤ window.ticks ∧ 1000000 ≤ interval.ticks := by
  have hmillis (s : Span) : s.millis ≠ 0 ↔ 1000000 ≤ s.ticks := by
    rw [Ne, ← UInt64.toNat_inj, Span.millis, Word.toNat_clamp, UInt64.toNat_zero]
    omega
  rw [← hmillis, ← hmillis, Config.make]
  split_ifs with hwindow hinterval
  · simp [hwindow]
  · simp [hinterval]
  · simp [hwindow, hinterval]

theorem Config.window_of_make {window interval : Span} {c : Config}
    (h : Config.make window interval = .ok c) : c.window = window := by
  rw [Config.make] at h
  split_ifs at h
  cases h
  rfl

/-- **Arithmetic stays in range.** A configuration is accepted exactly if both spans hold a
millisecond. In every history of a meter so configured, with calls at any times in any order, the
arithmetic of each call stays in range. So does that of a quota for any window, also an empty one
that counts as a millisecond, as long as the window can be rounded up to seconds. -/
theorem arithmetic_in_range (window interval : Span) :
    ((∃ c, Config.make window interval = .ok c) ↔
      1000000 ≤ window.ticks ∧ 1000000 ≤ interval.ticks) ∧
    (∀ c, Config.make window interval = .ok c → c.width = window.millis ∧
      ∀ (calls : List Call) (call : Call), ((fresh c).run calls).InRange call) ∧
    (max window.millis.toNat 1 + 999 ≤ 18446744073709551615 →
      ∀ (limit rate : Word) (time : Instant), Quota.InRange limit rate window time) := by
  refine ⟨Config.exists_make_iff window interval, fun c hc => ⟨?_, fun calls call => ?_⟩, ?_⟩
  · rw [Config.width, Config.window_of_make hc]
  · exact inRange _ _
  · exact Quota.inRange

/-- Windows of a second. -/
def secondConfig : Config := ⟨.ofMillis 1000, .ofSecs 7, by decide, by decide⟩

/-- Half a millisecond into the millisecond that is a window before the last reading. -/
def windowBefore : Instant := ⟨18446744073709550, ⟨615500000, by decide⟩⟩

/-- Bucket 7 has three events in the window before the last there is, and bucket 8 one before the
epoch. -/
def edgeHistory : List Call :=
  [.count 8 ⟨-5, noNanos⟩, .count 7 windowBefore, .count 7 windowBefore, .count 7 windowBefore]

/-- An event at the last instant, whose reading saturates, carries one of the three over. -/
theorem arithmetic_in_range_edgeHistory :
    Config.make (.ofMillis 1000) (.ofSecs 7) = .ok secondConfig ∧
      ((fresh secondConfig).run edgeHistory).operands? (.count 7 .last) = some ⟨1, 3, 615⟩ ∧
      (⟨1, 3, 615⟩ : Operands).share 1000 = 1 ∧
      (((fresh secondConfig).run edgeHistory).reply (.count 7 .last)).rate.toNat = 2 ∧
      Quota.InRange 0 5 (.ofMillis 1000) .last := by
  have hmake : Config.make (.ofMillis 1000) (.ofSecs 7) = .ok secondConfig := by decide
  have hoperands : ((fresh secondConfig).run edgeHistory).operands? (.count 7 .last) =
      some ⟨1, 3, 615⟩ := by decide +kernel
  obtain ⟨-, hmeter, hquota⟩ := arithmetic_in_range (.ofMillis 1000) (.ofSecs 7)
  obtain ⟨hrange, hrate⟩ :=
    ((hmeter secondConfig hmake).2 edgeHistory (.count 7 .last)).operands _ hoperands
  refine ⟨hmake, hoperands, by decide, ?_, hquota (by decide) 0 5 .last⟩
  rw [hrate, hrange.toNat_rate, config_run]
  decide

end Meter

end RateGate
