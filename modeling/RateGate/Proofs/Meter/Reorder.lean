import Mathlib.Data.List.Induction
import RateGate.Proofs.Meter.Answer

/-!
# The order of calls at one instant

Calls at one instant share the register of a meter, and whichever comes first sweeps it. So calls
about different identifiers do touch each other's tallies.

**Theorem (`reorder_at_instant`).** Take any meter and any calls at one reading, and bring the calls
into another order in which those about each identifier keep theirs. Every call is told the same,
and the meter is the same afterwards.

At one reading all that an identifier can tell of a meter is what a sweep leaves of its tally. Calls
about others do not change that, whether they sweep or not (`Alike.skip`), so for the identifier a
run is as good as the run of its own calls (`Alike.run`). As to the meter as a whole, every call
leaves it swept (`sweep_reply`), also where the next sweep is due again at the same reading.
-/

namespace RateGate

/-! ## Calls in another order -/

/-- The calls about an identifier, in their order. -/
def about (id : Identifier) (calls : List Call) : List Call := calls.filter fun c => c.id = id

/-- The same calls in another order, in which the calls about each identifier keep theirs. -/
def Reordered (calls others : List Call) : Prop := ∀ id, about id others = about id calls

theorem about_cons (id : Identifier) (c : Call) (calls : List Call) :
    about id (c :: calls) = if c.id = id then c :: about id calls else about id calls := by
  rw [about, List.filter_cons]
  by_cases h : c.id = id <;> simp [h, about]

theorem mem_about {id : Identifier} {calls : List Call} {c : Call} :
    c ∈ about id calls ↔ c ∈ calls ∧ c.id = id := by
  rw [about, List.mem_filter, decide_eq_true_eq]

namespace Reordered

variable {calls others : List Call}

theorem mem_iff (h : Reordered calls others) (c : Call) : c ∈ others ↔ c ∈ calls := by
  have hc : c ∈ about c.id others ↔ c ∈ about c.id calls := by rw [h c.id]
  rwa [mem_about, mem_about, and_iff_left rfl, and_iff_left rfl] at hc

theorem eq_nil_iff (h : Reordered calls others) : others = [] ↔ calls = [] := by
  rw [List.eq_nil_iff_forall_not_mem, List.eq_nil_iff_forall_not_mem]
  exact forall_congr' fun c => not_congr (h.mem_iff c)

end Reordered

namespace Meter

theorem ext_get? {m other : Meter} (hconfig : other.config = m.config)
    (hget : ∀ id, other.register.get? id = m.register.get? id)
    (hnext : other.register.nextSweep = m.register.nextSweep) : other = m := by
  obtain ⟨config, register⟩ := m
  obtain ⟨config', register'⟩ := other
  have hregister : register' = register := Register.ext_get? hget hnext
  subst hregister
  subst hconfig
  rfl

/-! ## What an identifier can tell -/

/-- A call counts its event onto what the sweep before it left, and a sweep at the same reading finds
just that. -/
theorem seen_reply_eq (m : Meter) (c : Call) (id : Identifier) :
    (m.reply c).meter.seen c.reading id =
      if c.counts id then some (Tally.add (m.slot c.reading) (m.seen c.reading id))
      else m.seen c.reading id :=
  (m.seen_reply c id).trans (m.get?_reply c id)

/-- At a reading, an identifier cannot tell one meter from the other. -/
structure Alike (now : Word) (id : Identifier) (m other : Meter) : Prop where
  config_eq : other.config = m.config
  seen_eq : other.seen now id = m.seen now id

namespace Alike

variable {now : Word} {id : Identifier} {m other : Meter} {c : Call} {calls : List Call}

theorem refl (now : Word) (id : Identifier) (m : Meter) : Alike now id m m := ⟨rfl, rfl⟩

theorem slot_eq (h : Alike now id m other) (reading : Word) :
    other.slot reading = m.slot reading := by
  rw [slot, slot, h.config_eq]

theorem reply (h : Alike c.reading id m other) :
    Alike c.reading id (m.reply c).meter (other.reply c).meter where
  config_eq := by rw [config_reply, config_reply, h.config_eq]
  seen_eq := by rw [seen_reply_eq, seen_reply_eq, h.slot_eq, h.seen_eq]

/-- A call about another identifier to one of them keeps them alike. -/
theorem skip (h : Alike c.reading id m other) (hid : c.id ≠ id) :
    Alike c.reading id (m.reply c).meter other where
  config_eq := by rw [config_reply, h.config_eq]
  seen_eq := by
    have hcounts : ¬c.counts id = true := fun hc => hid (Call.id_eq_of_counts hc)
    rw [seen_reply_eq, if_neg hcounts, h.seen_eq]

theorem rate_eq (h : Alike c.reading c.id m other) : (other.reply c).rate = (m.reply c).rate := by
  rw [rate_reply, rate_reply, get?_reply, get?_reply, h.slot_eq, h.config_eq, h.seen_eq]

/-- For the identifier, a run is as good as the run of its own calls. -/
theorem run (hcalls : ∀ c ∈ calls, c.reading = now) (h : Alike now id m other) :
    Alike now id (m.run calls) (other.run (about id calls)) := by
  induction calls generalizing m other with
  | nil => exact h
  | cons c calls ih =>
    obtain ⟨rfl, hrest⟩ := List.forall_mem_cons.1 hcalls
    rw [about_cons]
    by_cases hid : c.id = id
    · rw [if_pos hid]
      exact ih hrest h.reply
    · rw [if_neg hid]
      exact ih hrest (h.skip hid)

/-- In the run of its own calls, the identifier is told what it is told in the whole run. -/
theorem told_eq (hcalls : ∀ c ∈ calls, c.reading = now) (h : Alike now id m other) :
    other.told id (about id calls) = m.told id calls := by
  induction calls generalizing m other with
  | nil => rfl
  | cons c calls ih =>
    obtain ⟨rfl, hrest⟩ := List.forall_mem_cons.1 hcalls
    rw [about_cons, told_cons]
    by_cases hid : c.id = id
    · subst hid
      rw [if_pos rfl, if_pos rfl, told_cons, if_pos rfl, h.rate_eq, ih hrest h.reply]
    · rw [if_neg hid, if_neg hid, List.nil_append]
      exact ih hrest (h.skip hid)

end Alike

/-! ## The meter as a whole -/

variable {m : Meter} {now : Word} {calls others : List Call}

/-- After a call there is nothing left to sweep at its reading. Where the next sweep is due again,
it sets itself to the same reading as before. -/
theorem sweep_reply (m : Meter) (c : Call) :
    ((m.reply c).meter.sweep c.reading).2 = (m.reply c).meter := by
  refine ext_get? (config_sweep _ _) (fun id => m.seen_reply c id) ?_
  rw [nextSweep_sweep]
  split_ifs with hagain
  · have hdue : m.register.sweepDue c.reading = true := by
      by_contra hdue
      rw [Register.sweepDue, nextSweep_reply, nextSweep_sweep, if_neg hdue] at hagain
      exact hdue hagain
    rw [nextSweep_reply, nextSweep_sweep, if_pos hdue, nextSweep, nextSweep, config_reply]
  · rfl

theorem sweep_run (hcalls : ∀ c ∈ calls, c.reading = now) (hne : calls ≠ []) :
    ((m.run calls).sweep now).2 = m.run calls := by
  obtain ⟨before, c, rfl⟩ := (List.eq_nil_or_concat calls).resolve_left hne
  rw [List.concat_eq_append] at hcalls ⊢
  have hc : c.reading = now := hcalls c (List.mem_append_right _ (List.mem_singleton_self c))
  rw [run_append, run_cons, run_nil, ← hc, sweep_reply]

theorem nextSweep_sweep_run (hcalls : ∀ c ∈ calls, c.reading = now) :
    ((m.run calls).sweep now).2.register.nextSweep = (m.sweep now).2.register.nextSweep := by
  induction calls generalizing m with
  | nil => rfl
  | cons c calls ih =>
    obtain ⟨rfl, hrest⟩ := List.forall_mem_cons.1 hcalls
    rw [run_cons, ih hrest, sweep_reply, nextSweep_reply]

/-- **The order of calls at one instant.** Whatever a meter has been through: if calls at one reading
are made in another order in which those about each identifier keep theirs, every call is told the
same, and the meter holds the same tallies afterwards and sweeps next at the same reading. -/
theorem reorder_at_instant (m : Meter) (hcalls : ∀ c ∈ calls, c.reading = now)
    (horder : Reordered calls others) :
    (∀ id, m.told id others = m.told id calls) ∧ m.run others = m.run calls := by
  have hothers : ∀ c ∈ others, c.reading = now := fun c hc => hcalls c ((horder.mem_iff c).1 hc)
  refine ⟨fun id => ?_, ?_⟩
  · rw [← (Alike.refl now id m).told_eq hothers, horder id, (Alike.refl now id m).told_eq hcalls]
  · by_cases hnil : calls = []
    · rw [horder.eq_nil_iff.2 hnil, hnil]
    · have hseen (id : Identifier) : (m.run others).seen now id = (m.run calls).seen now id := by
        have hown := ((Alike.refl now id m).run hothers).seen_eq
        rw [horder id] at hown
        exact hown.symm.trans ((Alike.refl now id m).run hcalls).seen_eq
      -- Both runs leave the meter swept, so what the identifiers see is what it holds.
      rw [← sweep_run hcalls hnil, ← sweep_run hothers (mt horder.eq_nil_iff.1 hnil)]
      refine ext_get? ?_ hseen ?_
      · rw [config_sweep, config_sweep, config_run, config_run]
      · rw [nextSweep_sweep_run hcalls, nextSweep_sweep_run hothers]

/-- A meter with windows of ten seconds. A sweep is due at 36 seconds and will drop bucket 7. -/
def dueMeter : Meter :=
  (fresh ⟨.ofSecs 10, .ofMillis 500, by decide, by decide⟩).run
    [.count 7 ⟨5, noNanos⟩, .count 8 ⟨35, noNanos⟩]

/-- Calls at one instant; the first one sweeps. -/
def instantCalls : List Call :=
  [.count 7 ⟨36, noNanos⟩, .read 8 ⟨36, noNanos⟩, .count 8 ⟨36, noNanos⟩, .read 7 ⟨36, noNanos⟩]

/-- The same calls, with one of bucket 8 first. -/
def instantCallsReordered : List Call :=
  [.read 8 ⟨36, noNanos⟩, .count 7 ⟨36, noNanos⟩, .read 7 ⟨36, noNanos⟩, .count 8 ⟨36, noNanos⟩]

theorem reorder_at_instant_dueMeter :
    (∀ c ∈ instantCalls, c.reading = 36000) ∧ Reordered instantCalls instantCallsReordered ∧
      dueMeter.told 7 instantCalls = [1, 1] ∧ dueMeter.told 8 instantCalls = [1, 2] ∧
      dueMeter.told 8 instantCallsReordered = dueMeter.told 8 instantCalls ∧
      dueMeter.run instantCallsReordered = dueMeter.run instantCalls := by
  have hcalls : ∀ c ∈ instantCalls, c.reading = 36000 := by decide
  have horder : Reordered instantCalls instantCallsReordered := by
    intro id
    by_cases h7 : (7 : Identifier) = id
    · subst h7
      decide
    · by_cases h8 : (8 : Identifier) = id
      · subst h8
        decide
      · simp only [instantCalls, instantCallsReordered, about_cons, Call.id, h7, h8, if_false]
  obtain ⟨htold, hrun⟩ := reorder_at_instant dueMeter hcalls horder
  exact ⟨hcalls, horder, by decide +kernel, by decide +kernel, htold 8, hrun⟩

end Meter

end RateGate
