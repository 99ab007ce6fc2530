import RateGate.Proofs.Meter.Answer

/-!
# What a sweep retains

A tally is meant to live until its window is three windows old, and so as long as any rate depends
on it. The age is reckoned in saturating words.

**Theorem (`retention_of_sweep`).** A sweep drops exactly the tallies that are three windows old in
exact numbers, with one exception, `DroppedEarly`. The exception apart, a tally of the current or
the preceding window is retained, and the answer of the call that sweeps is the one it would give
without the sweep.

The exception takes a window so long that three of them pass the largest word, and a reading that is
the largest word itself. There the saturated age and the saturated reading cancel out, the cutoff is
zero, and the tallies that start at zero go although they are younger than three windows. If two
windows pass the largest word as well, then zero starts the preceding window, and a rate is lost
(`early_drop`).
-/

namespace RateGate.Meter

/-- The one case in which a sweep drops a tally too early: three windows are more than a word can
hold, the reading is the last there is, and the window of the tally starts at zero. -/
def DroppedEarly (m : Meter) (now : Word) (t : Tally) : Prop :=
  18446744073709551615 < 3 * m.config.width.toNat ∧ now.toNat = 18446744073709551615 ∧
    t.start.toNat = 0

/-- What a call would be told if it did not sweep first. -/
def rateUnswept (m : Meter) (c : Call) : Word :=
  match c, m.register.get? c.id with
  | .read _ _, none => 0
  | .read _ _, some t => t.rate m.config.width (m.slot c.reading)
  | .count _ _, none => 1
  | .count _ _, some t => t.rateOfHit m.config.width (m.slot c.reading)

variable {m : Meter} {now : Word} {id : Identifier} {t : Tally}

/-! ## Tallies -/

/-- The age at which a sweep drops a tally, in exact numbers. -/
theorem drops_iff_of_due (hdue : m.register.sweepDue now = true) :
    m.drops now t = true ↔
      t.start.toNat + 3 * m.config.width.toNat ≤ now.toNat ∨ m.DroppedEarly now t := by
  have hnow := now.toNat_lt
  rw [drops_iff, DroppedEarly]
  constructor
  · rintro ⟨-, hage⟩
    omega
  · intro hage
    exact ⟨hdue, by omega⟩

/-- A sweep finds a tally as it was, or drops it as stale, or too early. -/
theorem seen_eq_or (m : Meter) (now : Word) (id : Identifier) :
    m.seen now id = m.register.get? id ∨
      ∃ t, m.register.get? id = some t ∧ m.seen now id = none ∧
        (t.Stale m.config.width (m.slot now) ∨ m.DroppedEarly now t) := by
  cases hget : m.register.get? id with
  | none =>
    left
    rw [seen, get?_sweep, hget, Option.filter_none]
  | some t =>
    cases hdrops : m.drops now t with
    | false =>
      left
      exact seen_eq_some_iff.2 ⟨hget, hdrops⟩
    | true =>
      right
      refine ⟨t, rfl, ?_, ?_⟩
      · rw [seen, get?_sweep, hget, Option.filter_some, hdrops]
        rfl
      · rcases (drops_iff_of_due (drops_iff.1 hdrops).1).1 hdrops with hage | hearly
        · exact Or.inl (stale_of_add_three_width_le hage)
        · exact Or.inr hearly

/-! ## Rates -/

theorem rateUnswept_eq (m : Meter) (c : Call) :
    m.rateUnswept c =
      Tally.rateOf m.config.width (m.slot c.reading)
        (if c.counts c.id then some (Tally.add (m.slot c.reading) (m.register.get? c.id))
          else m.register.get? c.id) := by
  cases c with
  | read id time =>
    simp only [rateUnswept, Call.counts, Call.id]
    cases m.register.get? id <;> rfl
  | count id time =>
    simp only [rateUnswept, Call.counts, Call.id, decide_true, if_true]
    cases m.register.get? id with
    | none => exact (Tally.rate_first ..).symm
    | some t => exact Tally.rateOfHit_eq ..

/-- No call misses a tally that its sweep dropped, unless it was dropped too early. -/
theorem rate_reply_eq_rateUnswept {c : Call}
    (h : ∀ t, m.register.get? c.id = some t → ¬m.DroppedEarly c.reading t) :
    (m.reply c).rate = m.rateUnswept c := by
  rw [rate_reply, get?_reply, rateUnswept_eq]
  rcases m.seen_eq_or c.reading c.id with hseen | ⟨t, hget, hseen, hstale | hearly⟩
  · rw [hseen]
  · have hrate := Tally.rateOf_of_stale m.config.width_pos hstale
    have hadd := Tally.add_of_stale m.config.width_pos hstale
    rw [hseen, hget, slot, hadd]
    split_ifs
    · rfl
    · exact hrate.symm
  · exact absurd hearly (h t hget)

/-- **What a sweep retains.** For any meter and reading: if a sweep is due, it leaves exactly the
tallies that are younger than three windows and not `DroppedEarly`, each as it was. A tally of the
current window is always retained. But for `DroppedEarly` so is one of the preceding window, and the
call that sweeps is told what it would be told without the sweep. -/
theorem retention_of_sweep (m : Meter) (now : Word) :
    (m.register.sweepDue now = true → ∀ id t,
      (m.sweep now).2.register.get? id = some t ↔ m.register.get? id = some t ∧
        now.toNat < t.start.toNat + 3 * m.config.width.toNat ∧ ¬m.DroppedEarly now t) ∧
    (∀ id t, m.register.get? id = some t →
      (t.start = (m.slot now).start → (m.sweep now).2.register.get? id = some t) ∧
      (some t.start = (m.slot now).before → ¬m.DroppedEarly now t →
        (m.sweep now).2.register.get? id = some t)) ∧
    ∀ c : Call, c.reading = now →
      (∀ t, m.register.get? c.id = some t → ¬m.DroppedEarly now t) →
      (m.reply c).rate = m.rateUnswept c := by
  refine ⟨fun hdue id t => ?_, fun id t hget => ⟨fun hcurrent => ?_, fun hbefore hearly => ?_⟩, ?_⟩
  · rw [← seen, seen_eq_some_iff, Bool.eq_false_iff, Ne, drops_iff_of_due hdue, not_or, Nat.not_le]
  · have hle : (m.slot now).start ≤ t.start := hcurrent ▸ UInt64.le_refl _
    exact seen_eq_some_iff.2 ⟨hget, drops_of_start_le hle⟩
  · rcases m.seen_eq_or now id with hseen | ⟨u, hu, -, hstale | hdropped⟩
    · exact hseen.trans hget
    · cases hget.symm.trans hu
      exact absurd hbefore (hstale.ne_before m.config.width_pos)
    · cases hget.symm.trans hu
      exact absurd hdropped hearly
  · rintro c rfl h
    exact rate_reply_eq_rateUnswept h

/-- An event from 70 s and two from 360 s, with a sweep due from 370 s on. -/
def twoAges : Meter :=
  (fresh .standard).run
    [.count 8 ⟨70, noNanos⟩, .count 7 ⟨360, noNanos⟩, .count 7 ⟨361, noNanos⟩]

theorem retention_of_sweep_twoAges :
    twoAges.register.get? 8 = some ⟨1, 0, 60000⟩ ∧
    (∀ t, (twoAges.sweep 430000).2.register.get? 8 ≠ some t) ∧
    (twoAges.sweep 430000).2.register.get? 7 = some ⟨2, 0, 360000⟩ ∧
    (twoAges.reply (.read 7 ⟨430, noNanos⟩)).rate = 1 := by
  have hold : twoAges.register.get? 8 = some ⟨1, 0, 60000⟩ := by decide +kernel
  have hnew : twoAges.register.get? 7 = some ⟨2, 0, 360000⟩ := by decide +kernel
  have hshort (t : Tally) : ¬twoAges.DroppedEarly 430000 t :=
    fun h => absurd h.1 (by decide +kernel)
  obtain ⟨hsweep, hwindows, hrate⟩ := retention_of_sweep twoAges 430000
  refine ⟨hold, fun t ht => ?_, ?_, ?_⟩
  · obtain ⟨hget, hyoung, -⟩ := (hsweep (by decide +kernel) 8 t).1 ht
    cases hold.symm.trans hget
    exact absurd hyoung (by decide +kernel)
  · exact (hwindows 7 _ hnew).2 (by decide +kernel) (hshort _)
  · refine (hrate (.read 7 ⟨430, noNanos⟩) (by decide) fun t _ => hshort t).trans ?_
    decide +kernel

/-! ## A tally dropped too early -/

/-- The window is as long as a word can say. -/
def longestWindow : Config := ⟨.ofMillis 18446744073709551615, .ofSecs 1, by decide, by decide⟩

/-- The last instant whose milliseconds a word can hold. -/
def lastReading : Instant := ⟨18446744073709551, ⟨615000000, by decide⟩⟩

/-- An event at the epoch is one window old at the last reading and would be told in full. The sweep
drops it although it is not three windows old, and a read is told zero. -/
theorem early_drop :
    ((fresh longestWindow).run [.count 7 .epoch]).register.get? 7 = some ⟨1, 0, 0⟩ ∧
    some 0 = (((fresh longestWindow).run [.count 7 .epoch]).slot lastReading.epochMillis).before ∧
    ¬0 + 3 * longestWindow.width.toNat ≤ lastReading.epochMillis.toNat ∧
    (((fresh longestWindow).run [.count 7 .epoch]).sweep
      lastReading.epochMillis).2.register.get? 7 = none ∧
    ((fresh longestWindow).run [.count 7 .epoch]).rateUnswept (.read 7 lastReading) = 1 ∧
    (((fresh longestWindow).run [.count 7 .epoch]).reply (.read 7 lastReading)).rate = 0 := by
  decide +kernel

end RateGate.Meter
