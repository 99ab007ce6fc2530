import RateGate.Proofs.Meter.Answer

/-!
# What a call may change

Reads and counts share the sweep, and a read at a new window reckons with a tally that it must not
store.

**Theorem (`frame_of_call`).** A read makes no tally and changes none: it leaves the meter as it was
while no sweep is due, and else by a sweep (`Frame`). A count does no more than that to the tallies
of other identifiers. It leaves its own identifier a tally, and the window of that tally never starts
before the window of the one it had.

Along calls that do not count an identifier, its tally is the one from before them or gone
(`get?_eq_some_of_run`).

For the last part a tally may be dropped and made again within one call, at a reading that came
late. A sweep drops no tally of a window after the one of its reading (`start_le_of_drops`), and
there the new tally starts.
-/

namespace RateGate.Meter

/-- On the identifiers `others`, a call at a reading changes a meter by a sweep at most. While no
sweep is due it changes nothing; else it may drop tallies, and it sets the next sweep one interval
ahead, as far as a word can hold it. -/
structure Frame (now : Word) (others : Identifier → Prop) (before after : Meter) : Prop where
  config_eq : after.config = before.config
  get?_eq_or : ∀ id, others id → after.register.get? id = before.register.get? id ∨
    before.register.sweepDue now = true ∧ after.register.get? id = none
  nextSweep_eq : after.register.nextSweep.toNat =
    if before.register.sweepDue now then
      min (now.toNat + before.config.period.toNat) 18446744073709551615
    else before.register.nextSweep.toNat

variable {m : Meter} {now : Word} {id : Identifier} {t : Tally} {c : Call}

/-! ## Other tallies -/

theorem sweep_of_not_due (h : m.register.sweepDue now = false) : m.sweep now = (none, m) := by
  rw [sweep, if_neg (Bool.eq_false_iff.1 h)]

theorem seen_eq_or_none (m : Meter) (now : Word) (id : Identifier) :
    m.seen now id = m.register.get? id ∨
      m.register.sweepDue now = true ∧ m.seen now id = none := by
  cases hdue : m.register.sweepDue now with
  | false =>
    left
    rw [seen, sweep_of_not_due hdue]
  | true =>
    cases hseen : m.seen now id with
    | none => exact Or.inr ⟨rfl, rfl⟩
    | some t => exact Or.inl (seen_eq_some_iff.1 hseen).1.symm

theorem get?_reply_of_not_counted (h : c.counts id = false) :
    (m.reply c).meter.register.get? id = m.seen c.reading id := by
  rw [get?_reply, if_neg (Bool.eq_false_iff.1 h)]

theorem frame_reply (m : Meter) {others : Identifier → Prop}
    (h : ∀ id, others id → c.counts id = false) :
    Frame c.reading others m (m.reply c).meter where
  config_eq := config_reply m c
  get?_eq_or := by
    intro id hid
    rw [get?_reply_of_not_counted (h id hid)]
    exact seen_eq_or_none m c.reading id
  nextSweep_eq := toNat_nextSweep_reply m c

/-- No calls make or change the tally of an identifier that none of them counts. -/
theorem get?_eq_some_of_run {calls : List Call} (hidle : ∀ c ∈ calls, c.counts id = false)
    (h : (m.run calls).register.get? id = some t) : m.register.get? id = some t := by
  induction calls generalizing m with
  | nil => exact h
  | cons c calls ih =>
    obtain ⟨hc, hrest⟩ := List.forall_mem_cons.1 hidle
    have hreply := ih hrest h
    rw [get?_reply_of_not_counted hc] at hreply
    exact (seen_eq_some_iff.1 hreply).1

/-! ## The tally of the event -/

/-- A sweep drops no tally of a window that starts after the one of its reading. -/
theorem start_le_of_drops (h : m.drops now t = true) : t.start ≤ (m.slot now).start := by
  refine (UInt64.le_total _ _).resolve_right fun hlate => ?_
  have hkept := drops_of_start_le hlate
  rw [h] at hkept
  cases hkept

/-- An event does not move a tally back, nor does it where the sweep before it dropped the tally. -/
theorem start_le_start_add (h : m.register.get? id = some t) :
    t.start ≤ (Tally.add (m.slot now) (m.seen now id)).start := by
  cases hdrops : m.drops now t with
  | false =>
    rw [seen_eq_some_iff.2 ⟨h, hdrops⟩, Tally.add_some, Tally.start_hit]
    split_ifs with hlate
    · exact UInt64.le_refl _
    · exact UInt64.le_of_lt (UInt64.not_le.1 hlate)
  | true => exact UInt64.le_trans (start_le_of_drops hdrops) (Tally.start_le_add _ _)

/-- **What a call may change.** Whatever a meter has been through, and at any time. A read changes the
meter by a sweep at most, and not at all while no sweep is due. A count changes the tallies of other
identifiers just as a read in its place would. It leaves its own identifier a tally, whose window does
not start before the window of the tally that the identifier had. -/
theorem frame_of_call (m : Meter) (id : Identifier) (time : Instant) :
    Frame time.epochMillis (fun _ => True) m (m.reply (.read id time)).meter ∧
    (m.register.sweepDue time.epochMillis = false → (m.reply (.read id time)).meter = m) ∧
    Frame time.epochMillis (fun other => other ≠ id) m (m.reply (.count id time)).meter ∧
    (∀ other, other ≠ id → (m.reply (.count id time)).meter.register.get? other =
      (m.reply (.read id time)).meter.register.get? other) ∧
    ∃ t, (m.reply (.count id time)).meter.register.get? id = some t ∧
      ∀ old, m.register.get? id = some old → old.start ≤ t.start := by
  have hread (other : Identifier) : Call.counts other (.read id time) = false := rfl
  have hcount (other : Identifier) (hne : other ≠ id) :
      Call.counts other (.count id time) = false := decide_eq_false (Ne.symm hne)
  have hown : Call.counts id (.count id time) = true := decide_eq_true rfl
  refine ⟨m.frame_reply fun other _ => hread other, fun hdue => ?_, m.frame_reply hcount,
    fun other hne => ?_, Tally.add (m.slot time.epochMillis) (m.seen time.epochMillis id), ?_, ?_⟩
  · rw [reply, read, meter_readMillis, sweep_of_not_due hdue]
  · rw [get?_reply_of_not_counted (hcount other hne), get?_reply_of_not_counted (hread other)]
    rfl
  · rw [get?_reply, if_pos hown]
    rfl
  · intro old hold
    exact start_le_start_add hold

/-- A meter that counted bucket 7 at 70 seconds. The next sweep is due at 370 and will drop it. -/
def onceMeter : Meter := (fresh .standard).run [.count 7 ⟨70, noNanos⟩]

/-- Before the sweep is due, a read leaves the meter as it was. The count at 400 sweeps, drops the
tally of its own bucket, and makes a later one. -/
theorem frame_of_call_onceMeter :
    onceMeter.register.sweepDue 130000 = false ∧
      (onceMeter.reply (.read 7 ⟨130, noNanos⟩)).meter = onceMeter ∧
      onceMeter.register.get? 7 = some ⟨1, 0, 60000⟩ ∧ onceMeter.seen 400000 7 = none ∧
      (∃ t, (onceMeter.reply (.count 7 ⟨400, noNanos⟩)).meter.register.get? 7 = some t ∧
        60000 ≤ t.start) ∧
      (7 : Identifier) ≠ 8 ∧ (onceMeter.reply (.count 8 ⟨400, noNanos⟩)).meter.register.get? 7 =
        (onceMeter.reply (.read 8 ⟨400, noNanos⟩)).meter.register.get? 7 := by
  have hdue : onceMeter.register.sweepDue 130000 = false := by decide +kernel
  have hget : onceMeter.register.get? 7 = some ⟨1, 0, 60000⟩ := by decide +kernel
  have hread := (frame_of_call onceMeter 7 ⟨130, noNanos⟩).2.1 hdue
  obtain ⟨t, ht, hstart⟩ := (frame_of_call onceMeter 7 ⟨400, noNanos⟩).2.2.2.2
  have hother := (frame_of_call onceMeter 8 ⟨400, noNanos⟩).2.2.2.1 7 (by decide)
  exact ⟨hdue, hread, hget, by decide +kernel, ⟨t, ht, hstart _ hget⟩, by decide, hother⟩

end RateGate.Meter
