import RateGate.Proofs.Meter.Answer
import RateGate.Proofs.Windows

/-!
# Rates and histories

**Theorem (`rate_replies`).** Take a fresh meter and any timely calls, on any identifiers, reads
and counts mixed. Every answer is the closed form `rateAfter` of the events counted so far for the
identifier that was asked for. When sweeps ran, how often, what was read and what was counted for
other identifiers does not show.

The proof carries `Accounts` along the calls. A tally that the meter holds is the sum of its
identifier's history (`Sums`); where the meter holds none, every event of the history is at least
three windows older than some reading. No timely reading comes back far enough to see such an event,
so the closed form does not count it either.
-/

namespace RateGate

/-- The readings of calls in milliseconds. -/
def readings (calls : List Call) : List Nat := calls.map fun c => c.reading.toNat

/-- The readings of the events of an identifier. -/
def events (id : Identifier) (calls : List Call) : List Nat :=
  readings (calls.filter (Call.counts id))

theorem readings_append (calls more : List Call) :
    readings (calls ++ more) = readings calls ++ readings more :=
  List.map_append

theorem events_append (id : Identifier) (calls : List Call) (c : Call) :
    events id (calls ++ [c]) =
      events id calls ++ if c.counts id then [c.reading.toNat] else [] := by
  rw [events, List.filter_append, readings_append]
  by_cases h : c.counts id = true <;> simp [events, readings, h]

theorem sublist_of_eq_append {α : Type} {l before after : List α} {a : α}
    (h : l = before ++ a :: after) : (before ++ [a]).Sublist l := by
  rw [h, List.append_cons before a after]
  exact List.sublist_append_left _ _

/-! ## Tallies as sums -/

/-- The tally of a history whose events count into the windows `ws`. -/
structure Tally.Sums (width : Word) (ws : List Nat) (t : Tally) : Prop where
  start : t.start.toNat = latest ws * width.toNat
  current : t.current.toNat = capped (ws.count (latest ws))
  previous : t.previous.toNat = capped (ws.countP fun w => w + 1 = latest ws)

namespace Tally.Sums

variable {width : Word} {ws : List Nat} {t : Tally}

theorem start_le_iff (h : t.Sums width ws) (hw : 0 < width.toNat) (now : Word) :
    (Slot.ofReading width now).start ≤ t.start ↔ now.toNat / width.toNat ≤ latest ws := by
  rw [UInt64.le_iff_toNat_le, Slot.toNat_start, h.start, Nat.mul_le_mul_right_iff hw]

theorem start_eq_iff (h : t.Sums width ws) (hw : 0 < width.toNat) (now : Word) :
    t.start = (Slot.ofReading width now).start ↔ now.toNat / width.toNat = latest ws := by
  rw [← UInt64.toNat_inj, Slot.toNat_start, h.start, Nat.mul_left_inj hw.ne', eq_comm]

theorem some_eq_before_iff (h : t.Sums width ws) (hw : 0 < width.toNat) (now : Word) :
    some t.start = (Slot.ofReading width now).before ↔
      latest ws + 1 = now.toNat / width.toNat := by
  rw [Slot.some_eq_before_iff, Slot.toNat_start, h.start, ← Nat.succ_mul, Nat.mul_left_inj hw.ne']

/-- An event at a reading keeps the tally the sum of its history. -/
theorem hit (h : t.Sums width ws) (hw : 0 < width.toNat) (hle : ∀ w ∈ ws, w ≤ latest ws)
    (now : Word) :
    (t.hit (.ofReading width now)).Sums width
      (ws ++ [max (latest ws) (now.toNat / width.toNat)]) := by
  by_cases hlate : now.toNat / width.toNat ≤ latest ws
  · rw [max_eq_left hlate, Tally.hit, if_pos ((h.start_le_iff hw now).2 hlate)]
    refine ⟨by rw [latest_append, h.start], ?_, ?_⟩
    · have hone : (1 : Word).toNat = 1 := rfl
      rw [latest_append, List.count_append, List.count_singleton_self, Word.toNat_satAdd,
        h.current, hone, capped, capped]
      omega
    · rw [latest_append, h.previous]
      simp [List.countP_append]
  · have hlt : latest ws < now.toNat / width.toNat := Nat.lt_of_not_le hlate
    have hpast : ∀ w ∈ ws, w < now.toNat / width.toNat := fun w hmem => (hle w hmem).trans_lt hlt
    rw [max_eq_right hlt.le, Tally.hit,
      if_neg (fun hstart => hlate ((h.start_le_iff hw now).1 hstart))]
    refine ⟨by rw [latest_append, Slot.toNat_start], ?_, ?_⟩
    · rw [latest_append, List.count_append, count_eq_zero_of_lt hpast]
      simp [capped]
    · rw [latest_append, List.countP_append]
      -- The window before the slot's is the tally's, or was never counted into.
      by_cases hbefore : latest ws + 1 = now.toNat / width.toNat
      · rw [if_pos ((h.some_eq_before_iff hw now).2 hbefore), h.current, ← hbefore, countP_succ_eq]
        simp
      · have hgap : ∀ w ∈ ws, w + 1 < now.toNat / width.toNat := fun w hmem => by
          have := hle w hmem
          omega
        rw [if_neg (fun hb => hbefore ((h.some_eq_before_iff hw now).1 hb)),
          countP_succ_eq_zero hgap]
        simp [capped]

theorem toNat_rate (h : t.Sums width ws) (hw : 0 < width.toNat) (hle : ∀ w ∈ ws, w ≤ latest ws)
    (now : Word) :
    (t.rate width (.ofReading width now)).toNat = rateAfter width.toNat ws now.toNat := by
  by_cases hlate : now.toNat / width.toNat ≤ latest ws
  · rw [Tally.rate, if_pos ((h.start_le_iff hw now).2 hlate), toNat_slidingRate, h.current,
      h.previous, rateAfter, max_eq_right hlate]
    simp only [h.start_eq_iff hw now]
    split_ifs
    · rw [Slot.toNat_elapsed]
      rfl
    · rfl
  · have hlt : latest ws < now.toNat / width.toNat := Nat.lt_of_not_le hlate
    have hpast : ∀ w ∈ ws, w < now.toNat / width.toNat := fun w hmem => (hle w hmem).trans_lt hlt
    rw [Tally.rate, if_neg (fun hstart => hlate ((h.start_le_iff hw now).1 hstart)), rateAfter,
      max_eq_left hlt.le, count_eq_zero_of_lt hpast]
    by_cases hbefore : latest ws + 1 = now.toNat / width.toNat
    · rw [if_pos ((h.some_eq_before_iff hw now).2 hbefore), toNat_slidingRate, h.current,
        Slot.toNat_elapsed, ← hbefore, countP_succ_eq, if_pos rfl]
      rfl
    · have hgap : ∀ w ∈ ws, w + 1 < now.toNat / width.toNat := fun w hmem => by
        have := hle w hmem
        omega
      rw [if_neg (fun hb => hbefore ((h.some_eq_before_iff hw now).1 hb)),
        countP_succ_eq_zero hgap]
      simp [capped]

end Tally.Sums

/-! ## Histories and registers -/

/-- What a meter holds of an identifier accounts for the events in the windows `ws`: it is their
sum, or it is nothing and they are three windows older than some reading. -/
def Accounts (width : Word) (rs ws : List Nat) : Option Tally → Prop
  | some t => t.Sums width ws
  | none => ∀ w ∈ ws, ∃ r ∈ rs, w * width.toNat + 3 * width.toNat ≤ r

namespace Accounts

variable {width : Word} {rs es : List Nat} {tally? : Option Tally}

/-- Events that left no tally are before the window that precedes the reading's. -/
theorem succ_lt {ws : List Nat} {now : Word} (h : Accounts width rs ws none)
    (hw : 0 < width.toNat) (hrs : ∀ r ∈ rs, r ≤ now.toNat + width.toNat) :
    ∀ w ∈ ws, w + 1 < now.toNat / width.toNat := by
  intro w hmem
  obtain ⟨r, hr, hage⟩ := h w hmem
  have hback := hrs r hr
  rw [Nat.lt_iff_add_one_le, Nat.le_div_iff_mul_le hw, Nat.add_mul, Nat.add_mul]
  omega

theorem add {now : Word} (h : Accounts width rs (windows width.toNat es) tally?)
    (hw : 0 < width.toNat) (hrs : ∀ r ∈ rs, r ≤ now.toNat + width.toNat) :
    Accounts width rs (windows width.toNat (es ++ [now.toNat]))
      (some (Tally.add (.ofReading width now) tally?)) := by
  rw [windows_append]
  cases tally? with
  | some t => exact Tally.Sums.hit h hw le_latest now
  | none =>
    have hgap := h.succ_lt hw hrs
    have hpast : ∀ w ∈ windows width.toNat es, w < now.toNat / width.toNat :=
      fun w hmem => (Nat.lt_succ_self w).trans (hgap w hmem)
    rw [max_eq_right (latest_le fun w hmem => (hpast w hmem).le)]
    refine ⟨by rw [latest_append, Tally.add_none, Tally.first, Slot.toNat_start], ?_, ?_⟩
    · rw [latest_append, List.count_append, List.count_singleton_self, count_eq_zero_of_lt hpast]
      rfl
    · rw [latest_append, List.countP_append, countP_succ_eq_zero hgap]
      simp [Tally.first, capped]

theorem toNat_rateOf {now : Word} (h : Accounts width rs (windows width.toNat es) tally?)
    (hw : 0 < width.toNat) (hrs : ∀ r ∈ rs, r ≤ now.toNat + width.toNat) :
    (Tally.rateOf width (.ofReading width now) tally?).toNat =
      rateAfter width.toNat (windows width.toNat es) now.toNat := by
  cases tally? with
  | some t => exact Tally.Sums.toNat_rate h hw le_latest now
  | none =>
    have hgap := h.succ_lt hw hrs
    have hpast : ∀ w ∈ windows width.toNat es, w < now.toNat / width.toNat :=
      fun w hmem => (Nat.lt_succ_self w).trans (hgap w hmem)
    rw [rateAfter, max_eq_left (latest_le fun w hmem => (hpast w hmem).le),
      count_eq_zero_of_lt hpast, countP_succ_eq_zero hgap]
    simp [capped]

/-- What a sweep leaves still accounts for the events, the reading of the sweep included. -/
theorem seen {m : Meter} {id : Identifier} {now : Word}
    (h : Accounts m.config.width rs (windows m.config.width.toNat es) (m.register.get? id))
    (hnow : now.toNat < 18446744073709551615) :
    Accounts m.config.width (rs ++ [now.toNat]) (windows m.config.width.toNat es)
      (m.seen now id) := by
  cases hseen : m.seen now id with
  | some t =>
    rw [(Meter.seen_eq_some_iff.1 hseen).1] at h
    exact h
  | none =>
    intro w hmem
    cases hget : m.register.get? id with
    | none =>
      rw [hget] at h
      obtain ⟨r, hr, hage⟩ := h w hmem
      exact ⟨r, List.mem_append_left _ hr, hage⟩
    | some t =>
      -- The sweep dropped the tally, so its whole history is old at this reading.
      have hdrops : m.drops now t = true := by
        by_contra hkept
        rw [Meter.seen_eq_some_iff.2 ⟨hget, Bool.eq_false_iff.2 hkept⟩] at hseen
        cases hseen
      rw [hget] at h
      have hage := Meter.add_three_width_le_of_drops (.inl hnow) hdrops
      rw [h.start] at hage
      have hmul := Nat.mul_le_mul_right m.config.width.toNat (le_latest w hmem)
      exact ⟨now.toNat, List.mem_append_right _ (List.mem_singleton_self _), by omega⟩

theorem reply {m : Meter} {c : Meter.Config} {id : Identifier} (hconfig : m.config = c)
    (h : Accounts c.width rs (windows c.width.toNat es) (m.register.get? id)) (call : Call)
    (htimely : Timely c.width.toNat (rs ++ [call.reading.toNat])) :
    Accounts c.width (rs ++ [call.reading.toNat])
      (windows c.width.toNat (es ++ if call.counts id then [call.reading.toNat] else []))
      ((m.reply call).meter.register.get? id) := by
  subst hconfig
  have hseen := h.seen htimely.last_lt
  rw [Meter.get?_reply]
  split_ifs
  · exact hseen.add m.config.width_pos htimely.le_add
  · rw [List.append_nil]
    exact hseen

end Accounts

namespace Meter

theorem replies_append (m : Meter) (before after : List Call) :
    m.replies (before ++ after) = m.replies before ++ (m.run before).replies after := by
  induction before generalizing m with
  | nil => rfl
  | cons c before ih => rw [List.cons_append, replies, ih, replies, run_cons, List.cons_append]

@[simp] theorem length_replies (m : Meter) (calls : List Call) :
    (m.replies calls).length = calls.length := by
  induction calls generalizing m with
  | nil => rfl
  | cons c calls ih => rw [replies, List.length_cons, List.length_cons, ih]

theorem getElem?_replies (m : Meter) (before after : List Call) (c : Call) :
    (m.replies (before ++ c :: after))[before.length]? = some ((m.run before).reply c) := by
  rw [replies_append, List.getElem?_append_right (by rw [length_replies]), length_replies,
    Nat.sub_self, replies, List.getElem?_cons_zero]

/-- After timely calls the register accounts for every history. -/
theorem accounts_run (c : Config) {calls : List Call}
    (h : Timely c.width.toNat (readings calls)) (id : Identifier) :
    Accounts c.width (readings calls) (windows c.width.toNat (events id calls))
      (((fresh c).run calls).register.get? id) := by
  induction calls using List.reverseRecOn with
  | nil =>
    rw [run_nil, get?_fresh]
    exact fun w hw => absurd hw List.not_mem_nil
  | append_singleton calls call ih =>
    rw [readings_append] at h ⊢
    have hcalls := ih (h.sublist (List.sublist_append_left _ _))
    rw [run_append, events_append]
    exact hcalls.reply (config_run _ _) call h

/-- The answer to a timely call is the closed form of the events so far. -/
theorem toNat_rate_reply_run (c : Config) {before : List Call} {call : Call}
    (h : Timely c.width.toNat (readings (before ++ [call]))) :
    (((fresh c).run before).reply call).rate.toNat =
      rateAfter c.width.toNat (windows c.width.toNat (events call.id (before ++ [call])))
        call.reading.toNat := by
  have haccounts := accounts_run c h call.id
  rw [run_append] at haccounts
  have hconfig : ((fresh c).run before).config = c := config_run _ _
  rw [rate_reply, hconfig, slot, hconfig]
  rw [readings_append] at h haccounts
  exact haccounts.toNat_rateOf c.width_pos h.le_add

/-- **Rates in closed form.** Every answer in a timely history of a fresh meter is the closed form
of the events that were counted for its identifier so far, the call's own included. -/
theorem rate_replies (c : Config) (before after : List Call) (call : Call)
    (h : Timely c.width.toNat (readings (before ++ call :: after))) :
    ((fresh c).replies (before ++ call :: after))[before.length]?.map (fun r => r.rate.toNat) =
      some (rateAfter c.width.toNat (windows c.width.toNat (events call.id (before ++ [call])))
        call.reading.toNat) := by
  have hprefix : Timely c.width.toNat (readings (before ++ [call])) :=
    h.sublist ((sublist_of_eq_append rfl).map _)
  rw [getElem?_replies, Option.map_some, toNat_rate_reply_run c hprefix]

/-- A history in seconds. The events of window 1 are swept when another identifier comes in, those
of window 7 are carried at half weight, and a late reading of window 7 counts into window 8. -/
def mixedHistory : List Call :=
  [.count 7 ⟨70, noNanos⟩, .count 7 ⟨75, noNanos⟩, .count 8 ⟨500, noNanos⟩, .count 7 ⟨450, noNanos⟩,
    .count 7 ⟨455, noNanos⟩, .count 7 ⟨490, noNanos⟩, .count 7 ⟨470, noNanos⟩]

theorem rate_replies_mixedHistory :
    Timely 60000 (readings (mixedHistory ++ [.read 7 ⟨510, noNanos⟩])) ∧
      ((fresh .standard).replies (mixedHistory ++ [.read 7 ⟨510, noNanos⟩]))[7]?.map
        (fun r => r.rate.toNat) = some 3 := by
  have htimely : Timely 60000 (readings (mixedHistory ++ [.read 7 ⟨510, noNanos⟩])) := by decide
  exact ⟨htimely, rate_replies .standard mixedHistory [] (.read 7 ⟨510, noNanos⟩) htimely⟩

end Meter

end RateGate
