import RateGate.Gate.Basic
import RateGate.Proofs.Gate.Verdict
import RateGate.Proofs.Meter.History
import RateGate.Proofs.Meter.Instant
import RateGate.Proofs.Meter.Retention

/-!
# Decay of idle rates

An identifier is idle while no event of it is counted.

**Theorem (`decay_of_idle`).** Take any meter and any calls whose readings never fall back and that
leave an identifier idle. The rates told for it never rise. Two window lengths after the window of
its tally started, the rate is zero, and a request of the identifier passes any gate.

A rate falls for two reasons. The tally may stay, and then less of it shows at a later reading
(`Tally.toNat_rate_antitone`); or a sweep may drop it. So what bounds all later answers is the rate
that the tally of the meter would show now, were it not swept, and no idle call raises that bound.
-/

namespace RateGate

/-! ## One tally -/

/-- Less of the events of the window before shows as the window goes on. -/
theorem toNat_slidingRate_antitone (width current previous : Word) {elapsed later : Word}
    (h : elapsed.toNat ≤ later.toNat) :
    (slidingRate width current previous later).toNat ≤
      (slidingRate width current previous elapsed).toNat := by
  have hshare : previous.toNat * (width.toNat - later.toNat) / width.toNat ≤
      previous.toNat * (width.toNat - elapsed.toNat) / width.toNat :=
    Nat.div_le_div_right (Nat.mul_le_mul_left _ (by omega))
  rw [toNat_slidingRate, toNat_slidingRate]
  omega

theorem le_toNat_slidingRate (width current previous elapsed : Word) :
    current.toNat ≤ (slidingRate width current previous elapsed).toNat := by
  have hword := current.toNat_lt
  rw [toNat_slidingRate]
  exact Nat.le_min.2 ⟨Nat.le_add_right _ _, by omega⟩

namespace Slot

variable {width now later : Word}

theorem toNat_start_le (h : now.toNat ≤ later.toNat) :
    (ofReading width now).start.toNat ≤ (ofReading width later).start.toNat := by
  rw [toNat_start, toNat_start]
  exact Nat.mul_le_mul_right _ (Nat.div_le_div_right h)

theorem toNat_elapsed_le (h : now.toNat ≤ later.toNat)
    (hstart : (ofReading width now).start = (ofReading width later).start) :
    (ofReading width now).elapsed.toNat ≤ (ofReading width later).elapsed.toNat := by
  have hnow := start_add_elapsed width now
  have hlater := start_add_elapsed width later
  rw [hstart] at hnow
  rw [toNat_elapsed, toNat_elapsed]
  omega

theorem start_eq_of_lt_add (h : now.toNat ≤ later.toNat)
    (hlt : (ofReading width later).start.toNat < (ofReading width now).start.toNat + width.toNat) :
    (ofReading width now).start = (ofReading width later).start := by
  have hle : now.toNat / width.toNat ≤ later.toNat / width.toNat := Nat.div_le_div_right h
  rw [toNat_start, toNat_start, ← Nat.succ_mul] at hlt
  have hdiv := Nat.le_of_lt_succ (Nat.lt_of_mul_lt_mul_right hlt)
  rw [← UInt64.toNat_inj, toNat_start, toNat_start, Nat.le_antisymm hle hdiv]

end Slot

namespace Tally

variable {width now later : Word} {t : Tally}

/-- As long as its window is not over, a tally shows less and less of the window before. -/
theorem toNat_rate_le_of_start_le (h : now.toNat ≤ later.toNat)
    (hlater : (Slot.ofReading width later).start ≤ t.start) :
    (t.rate width (.ofReading width later)).toNat ≤
      (t.rate width (.ofReading width now)).toNat := by
  have hstart : (Slot.ofReading width now).start ≤ (Slot.ofReading width later).start :=
    UInt64.le_iff_toNat_le.2 (Slot.toNat_start_le h)
  rw [rate, rate, if_pos hlater, if_pos (UInt64.le_trans hstart hlater)]
  apply toNat_slidingRate_antitone
  by_cases hnow : t.start = (Slot.ofReading width now).start
  · have heq : t.start = (Slot.ofReading width later).start :=
      UInt64.le_antisymm (hnow ▸ hstart) hlater
    rw [if_pos hnow, if_pos heq]
    exact Slot.toNat_elapsed_le h (hnow.symm.trans heq)
  · rw [if_neg hnow]
    exact Nat.zero_le _

/-- In the window after its own, a tally shows less and less of its events, and never more than in
its own window. -/
theorem toNat_rate_le_of_before (h : now.toNat ≤ later.toNat)
    (hlater : ¬(Slot.ofReading width later).start ≤ t.start)
    (hbefore : some t.start = (Slot.ofReading width later).before) :
    (t.rate width (.ofReading width later)).toNat ≤
      (t.rate width (.ofReading width now)).toNat := by
  have hstart := (Slot.some_eq_before_iff width later t.start).1 hbefore
  rw [rate, if_neg hlater, if_pos hbefore]
  by_cases hnow : (Slot.ofReading width now).start ≤ t.start
  · have hzero : (0 : Word).toNat = 0 := rfl
    have hshare := toNat_slidingRate_le width 0 t.current (Slot.ofReading width later).elapsed
    rw [hzero, Nat.zero_add] at hshare
    rw [rate, if_pos hnow]
    exact hshare.trans (le_toNat_slidingRate ..)
  -- The earlier reading is of the window after the tally's as well.
  · have hlt := UInt64.lt_iff_toNat_lt.1 (UInt64.not_le.1 hnow)
    have hsame := Slot.start_eq_of_lt_add h (hstart ▸ Nat.add_lt_add_right hlt width.toNat)
    have hbefore' := (Slot.some_eq_before_iff width now t.start).2 (hsame ▸ hstart)
    rw [rate, if_neg hnow, if_pos hbefore']
    exact toNat_slidingRate_antitone _ _ _ (Slot.toNat_elapsed_le h hsame)

theorem toNat_rate_antitone (t : Tally) (h : now.toNat ≤ later.toNat) :
    (t.rate width (.ofReading width later)).toNat ≤
      (t.rate width (.ofReading width now)).toNat := by
  by_cases hlater : (Slot.ofReading width later).start ≤ t.start
  · exact toNat_rate_le_of_start_le h hlater
  · by_cases hbefore : some t.start = (Slot.ofReading width later).before
    · exact toNat_rate_le_of_before h hlater hbefore
    · rw [rate, if_neg hlater, if_neg hbefore]
      exact Nat.zero_le _

theorem toNat_rateOf_antitone (tally? : Option Tally) (h : now.toNat ≤ later.toNat) :
    (rateOf width (.ofReading width later) tally?).toNat ≤
      (rateOf width (.ofReading width now) tally?).toNat := by
  cases tally? with
  | none => exact Nat.le_refl _
  | some t => exact toNat_rate_antitone t h

/-- Two widths after the start of its window a tally shows nothing. -/
theorem rate_eq_zero_of_le (hw : 0 < width.toNat) (h : t.start.toNat + 2 * width.toNat ≤ now.toNat) :
    t.rate width (.ofReading width now) = 0 := by
  have hreading := Slot.reading_lt_start_add_width hw now
  have hlate : ¬(Slot.ofReading width now).start ≤ t.start := by
    rw [UInt64.le_iff_toNat_le]
    omega
  have hbefore : ¬some t.start = (Slot.ofReading width now).before := by
    rw [Slot.some_eq_before_iff]
    omega
  rw [rate, if_neg hlate, if_neg hbefore]

end Tally

/-! ## Idle calls -/

namespace Meter

variable {m : Meter} {id : Identifier} {c : Call} {now : Word}

/-- An idle call raises at no slot the rate that the tally of the identifier would show. -/
theorem toNat_rateOf_reply_le (hidle : c.counts id = false) (slot : Slot) :
    (Tally.rateOf m.config.width slot ((m.reply c).meter.register.get? id)).toNat ≤
      (Tally.rateOf m.config.width slot (m.register.get? id)).toNat := by
  rw [get?_reply, hidle, if_neg Bool.false_ne_true]
  rcases m.seen_eq_or c.reading id with hkept | ⟨t, -, hdropped, -⟩
  · rw [hkept]
  · rw [hdropped]
    exact Nat.zero_le _

theorem toNat_le_of_mem_told {calls : List Call} (hidle : ∀ c ∈ calls, c.counts id = false)
    (hnow : ∀ c ∈ calls, now.toNat ≤ c.reading.toNat) {r : Word} (hr : r ∈ m.told id calls) :
    r.toNat ≤ (Tally.rateOf m.config.width (m.slot now) (m.register.get? id)).toNat := by
  induction calls generalizing m with
  | nil => exact absurd hr List.not_mem_nil
  | cons c calls ih =>
    rw [List.forall_mem_cons] at hidle hnow
    rw [told_cons, List.mem_append] at hr
    rcases hr with hr | hr
    · split_ifs at hr with hid
      · rw [List.mem_singleton.1 hr, rate_reply, hid]
        exact (toNat_rateOf_reply_le hidle.1 _).trans (Tally.toNat_rateOf_antitone _ hnow.1)
      · exact absurd hr List.not_mem_nil
    · have hrest := ih hidle.2 hnow.2 hr
      rw [config_reply, slot, config_reply] at hrest
      exact hrest.trans (toNat_rateOf_reply_le hidle.1 _)

/-- The rates told for an idle identifier never rise, if the readings never fall back. -/
theorem pairwise_told {calls : List Call} (hidle : ∀ c ∈ calls, c.counts id = false)
    (hsorted : (readings calls).Pairwise (· ≤ ·)) :
    (m.told id calls).Pairwise fun earlier later => later ≤ earlier := by
  induction calls generalizing m with
  | nil => exact .nil
  | cons c calls ih =>
    rw [List.forall_mem_cons] at hidle
    obtain ⟨hfirst, hrest⟩ := List.pairwise_cons.1 hsorted
    have hnow : ∀ d ∈ calls, c.reading.toNat ≤ d.reading.toNat := by
      intro d hd
      exact hfirst _ (List.mem_map_of_mem hd)
    rw [told_cons]
    split_ifs with hid
    · refine List.pairwise_cons.2 ⟨fun r hr => ?_, ih hidle.2 hrest⟩
      have hle := toNat_le_of_mem_told hidle.2 hnow hr
      rw [config_reply, slot, config_reply] at hle
      rw [UInt64.le_iff_toNat_le, rate_reply, hid]
      exact hle
    · exact ih hidle.2 hrest

theorem rate_read_eq_zero {time : Instant} (h : ∀ t, m.register.get? id = some t →
      t.start.toNat + 2 * m.config.width.toNat ≤ time.epochMillis.toNat) :
    (m.reply (.read id time)).rate = 0 := by
  rw [rate_reply]
  cases hget : (m.reply (.read id time)).meter.register.get? (Call.read id time).id with
  | none => rfl
  | some t =>
    rw [get?_reply] at hget
    exact Tally.rate_eq_zero_of_le m.config.width_pos (h t (seen_eq_some_iff.1 hget).1)

end Meter

/-! ## Requests of an idle identifier -/

section Requests

variable {κ δ ε : Type} [Timepiece κ] [Downstream δ ε]

/-- A request whose identifier shows no rate passes any limit but zero, and is the first it counts. -/
theorem Flight.given_of_rate_eq_zero {f : Flight} {site : Site κ Meter δ} {id : Identifier}
    (hid : f.policy.extractor f.request = .ok id) (hlimit : f.policy.limit ≠ 0)
    (hrate : (site.backend.read id site.now).rate = 0) :
    (Verdict.passed id 1 (site.serve f.request)).Given f site := by
  have hone : (site.backend.reply (.count id site.now)).rate = 1 := by
    rw [← UInt64.toNat_inj, Meter.toNat_rate_count, hrate]
    rfl
  have hanswer : (site.tell id).answer = .ok 1 := congrArg Except.ok hone
  have hle : 1 ≤ f.policy.limit := by
    rw [UInt64.le_iff_toNat_le]
    exact Nat.pos_of_ne_zero fun hzero => hlimit (UInt64.toNat_inj.1 hzero)
  exact Verdict.given_passed hid hanswer hle

end Requests

namespace Meter

open Flight

/-- **Decay of idle rates.** Take any meter, and calls whose readings never fall back, none of which
counts an event of `id`. The rates told for `id` never rise. A read of it at least two window
lengths after its tally's window started, if it has a tally then, is told zero; and a request of
`id` right after that, through a gate of any preset and any settings that counts in the meter, is
forwarded as the first of its bucket. -/
theorem decay_of_idle {κ δ ε : Type} [Timepiece κ] [Downstream δ ε] (m : Meter) (id : Identifier)
    (calls : List Call) (hidle : ∀ c ∈ calls, c.counts id = false)
    (hsorted : (readings calls).Pairwise (· ≤ ·)) :
    ((m.told id calls).Pairwise fun earlier later => later ≤ earlier) ∧
    ∀ before time after, calls = before ++ .read id time :: after →
      (∀ t, (m.run before).register.get? id = some t →
        t.start.toNat + 2 * m.config.width.toNat ≤ time.epochMillis.toNat) →
      ((m.run before).reply (.read id time)).rate = 0 ∧
      ∀ (preset : Gate.Preset) (own : Nat) (settings : List Gate.Setting) (f : Flight)
        (site : Site κ Meter δ),
        f.policy = ((preset.gate own).configure settings).policy →
        f.policy.extractor f.request = .ok id → site.now = time →
        site.backend = ((m.run before).reply (.read id time)).meter →
        (Verdict.passed id 1 (site.serve f.request)).Given f site ∧
        (Verdict.passed id 1 (site.serve f.request)).Explains f site (f.settle site) := by
  refine ⟨pairwise_told hidle hsorted, fun before time after _ hold => ?_⟩
  have hzero : ((m.run before).reply (.read id time)).rate = 0 := by
    apply rate_read_eq_zero
    rw [config_run]
    exact hold
  refine ⟨hzero, fun preset own settings f site hpolicy hid hnow hbackend => ?_⟩
  have hlimit : f.policy.limit ≠ 0 := by
    rw [hpolicy]
    exact Gate.limit_configure_ne_zero (preset.limit_gate_ne_zero own) settings
  have hread : (site.backend.read id site.now).rate = 0 := by
    rw [hbackend, hnow, ← hzero]
    exact (rate_eq_rate_read_reply rfl).symm
  have hgiven := given_of_rate_eq_zero hid hlimit hread
  exact ⟨hgiven, hgiven.explains⟩

/-- A meter that counted bucket 7 twice in one window and three times in the next, in seconds. -/
def busyMeter : Meter :=
  (fresh .standard).run
    [.count 7 ⟨70, noNanos⟩, .count 7 ⟨75, noNanos⟩, .count 7 ⟨130, noNanos⟩,
      .count 7 ⟨131, noNanos⟩, .count 7 ⟨132, noNanos⟩]

/-- Calls that begin before the window of bucket 7 and go on into the second window after it. -/
def idleCalls : List Call :=
  [.read 7 ⟨100, noNanos⟩, .read 7 ⟨150, noNanos⟩, .count 8 ⟨170, noNanos⟩,
    .read 7 ⟨190, noNanos⟩, .read 7 ⟨250, noNanos⟩]

/-- A request of bucket 7, at a gate that was given the limit zero and so has the standard one. -/
def idleRequest : Flight :=
  ⟨((Gate.Preset.globalGuard 0).gate 0 |>.configure [.extractor (.constant 7)]).policy,
    ⟨.empty, ""⟩⟩

def idleSite : Site Instant Meter Canned.Client :=
  ⟨⟨250, noNanos⟩, (busyMeter.run idleCalls),
    ⟨⟨⟨.ok, .empty, none⟩, none, .ready, 0⟩, true, false⟩⟩

theorem decay_of_idle_idleCalls :
    (∀ c ∈ idleCalls, c.counts 7 = false) ∧ (readings idleCalls).Pairwise (· ≤ ·) ∧
      busyMeter.told 7 idleCalls = [5, 4, 2, 0] ∧
      (busyMeter.told 7 idleCalls).Pairwise (fun earlier later => later ≤ earlier) ∧
      (busyMeter.run (idleCalls.take 4)).register.get? 7 = some ⟨3, 2, 120000⟩ ∧
      120000 + 2 * 60000 ≤ 250000 ∧
      (Verdict.served 7 1 ⟨.ok, .empty, ""⟩ : Verdict String).Given idleRequest idleSite := by
  have hidle : ∀ c ∈ idleCalls, c.counts 7 = false := by decide
  have hsorted : (readings idleCalls).Pairwise (· ≤ ·) := by decide
  have hget : (busyMeter.run (idleCalls.take 4)).register.get? 7 = some ⟨3, 2, 120000⟩ := by
    decide +kernel
  have h := @decay_of_idle Instant Canned.Client String _ _ busyMeter 7 idleCalls hidle hsorted
  have hold := h.2 (idleCalls.take 4) ⟨250, noNanos⟩ [] rfl (by
    intro t ht
    rw [hget] at ht
    cases ht
    decide)
  have hgiven := (hold.2 (.globalGuard 0) 0 [.extractor (.constant 7)] idleRequest idleSite
    rfl rfl rfl rfl).1
  exact ⟨hidle, hsorted, by decide +kernel, h.1, hget, by decide, hgiven⟩

end Meter

end RateGate
