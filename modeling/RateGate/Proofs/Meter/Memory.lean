import RateGate.Proofs.Meter.Justified
import RateGate.Proofs.Meter.Register

/-!
# Memory of a meter

A meter forgets by traffic alone, and only when a sweep is due. Where readings never fall back that
is enough to bound what it holds.

**Theorem (`memory_bound`).** After a call, every tally started less than three windows and one
sweep interval before the reading of the call. So there are no more tallies than identifiers that
were counted at a reading less than that long ago.

What carries the proof is `Scheduled`: the next sweep is at most one interval away, and no tally will
be older than three windows and an interval when it is due.
-/

namespace RateGate

theorem Register.size_le_card {r : Register} {s : Finset Identifier}
    (h : ∀ id t, r.get? id = some t → id ∈ s) : r.size ≤ s.card := by
  rw [size_eq_ncard, ← Set.ncard_coe_finset]
  refine Set.ncard_le_ncard (fun id hid => ?_) s.finite_toSet
  obtain ⟨t, ht⟩ := Option.isSome_iff_exists.1 hid
  exact h id t ht

/-! ## Identifiers in use -/

/-- The identifiers that were counted at a reading less than `age` before `now`. -/
def countedWithin (age now : Nat) (calls : List Call) : Finset Identifier :=
  (calls.map Call.id).toFinset.filter fun id => ∃ r ∈ events id calls, now < r + age

theorem mem_countedWithin {age now : Nat} {calls : List Call} {id : Identifier} :
    id ∈ countedWithin age now calls ↔ ∃ r ∈ events id calls, now < r + age := by
  rw [countedWithin, Finset.mem_filter, and_iff_right_iff_imp]
  rintro ⟨r, hr, -⟩
  obtain ⟨c, hc, -⟩ := List.mem_map.1 hr
  obtain ⟨hmem, hcounts⟩ := List.mem_filter.1 hc
  exact List.mem_toFinset.2 (List.mem_map.2 ⟨c, hmem, Call.id_eq_of_counts hcounts⟩)

namespace Meter

/-! ## The schedule of sweeps -/

/-- How long a meter may hold a tally: three windows and one sweep interval. -/
def Config.lifespan (c : Config) : Nat := 3 * c.width.toNat + c.period.toNat

/-- As a call at reading `now` leaves it: the next sweep is not past and at most one interval away,
and until then no tally outlives its lifespan. -/
structure Scheduled (m : Meter) (now : Nat) : Prop where
  le_nextSweep : now ≤ m.register.nextSweep.toNat
  nextSweep_le : m.register.nextSweep.toNat ≤ now + m.config.period.toNat
  nextSweep_lt : ∀ id t, m.register.get? id = some t →
    m.register.nextSweep.toNat < t.start.toNat + m.config.lifespan

theorem scheduled_fresh (c : Config) : (fresh c).Scheduled 0 where
  le_nextSweep := Nat.zero_le _
  nextSweep_le := Nat.zero_le _
  nextSweep_lt := by
    intro id t h
    rw [get?_fresh] at h
    cases h

/-- A call keeps the schedule, unless its reading falls back. -/
theorem Scheduled.reply {m : Meter} {was : Nat} (h : m.Scheduled was) (c : Call)
    (hwas : was ≤ c.reading.toNat) : (m.reply c).meter.Scheduled c.reading.toNat := by
  have hnext := toNat_nextSweep_reply m c
  have hle : (m.reply c).meter.register.nextSweep.toNat ≤
      c.reading.toNat + m.config.period.toNat := by
    have hbefore := h.nextSweep_le
    rw [hnext]
    split_ifs <;> omega
  refine ⟨?_, ?_, fun id t ht => ?_⟩
  · have hword := c.reading.toNat_lt
    rw [hnext]
    split_ifs with hdue
    · omega
    · rw [Register.sweepDue, decide_eq_true_eq, UInt64.not_le] at hdue
      exact (UInt64.lt_iff_toNat_lt.1 hdue).le
  · rw [config_reply]
    exact hle
  · rw [config_reply, Config.lifespan]
    rw [get?_reply] at ht
    split_ifs at ht
    -- The tally of the event starts with the window of the reading, or later.
    · cases ht
      have hstart := UInt64.le_iff_toNat_le.1
        (Tally.start_le_add (m.slot c.reading) (m.seen c.reading id))
      have hreading := Slot.reading_lt_start_add_width m.config.width_pos c.reading
      rw [slot] at hstart ⊢
      omega
    -- Another tally was retained by the sweep, or there was none.
    · obtain ⟨hget, hkept⟩ := seen_eq_some_iff.1 ht
      have hbefore := h.nextSweep_lt id t hget
      rw [Config.lifespan] at hbefore
      rw [Bool.eq_false_iff, Ne, drops_iff, not_and] at hkept
      by_cases hdue : m.register.sweepDue c.reading = true
      · have hyoung := hkept hdue
        omega
      · rw [hnext, if_neg hdue]
        exact hbefore

theorem scheduled_run (c : Config) {calls : List Call} {call : Call}
    (h : (readings (calls ++ [call])).Pairwise (· ≤ ·)) :
    ((fresh c).run (calls ++ [call])).Scheduled call.reading.toNat := by
  induction calls using List.reverseRecOn generalizing call with
  | nil => exact (scheduled_fresh c).reply call (Nat.zero_le _)
  | append_singleton calls last ih =>
    rw [readings_append] at h
    obtain ⟨hcalls, -, hle⟩ := List.pairwise_append.1 h
    have hlast : last.reading.toNat ≤ call.reading.toNat := by
      refine hle _ ?_ _ (List.mem_singleton_self _)
      rw [readings_append]
      exact List.mem_append_right _ (List.mem_singleton_self _)
    rw [run_append]
    exact (ih hcalls).reply call hlast

/-- **Memory bound.** If readings never fall back, then after every call all tallies of a meter
started less than a lifespan ago, and there are no more of them than identifiers that were counted
less than a lifespan ago. -/
theorem memory_bound (c : Config) (before : List Call) (call : Call)
    (h : (readings (before ++ [call])).Pairwise (· ≤ ·)) :
    (∀ id t, ((fresh c).run (before ++ [call])).register.get? id = some t →
      call.reading.toNat < t.start.toNat + c.lifespan) ∧
    ((fresh c).run (before ++ [call])).size ≤
      (countedWithin c.lifespan call.reading.toNat (before ++ [call])).card := by
  have hconfig : ((fresh c).run (before ++ [call])).config = c := config_run _ _
  have hscheduled := scheduled_run c h
  have hyoung : ∀ id t, ((fresh c).run (before ++ [call])).register.get? id = some t →
      call.reading.toNat < t.start.toNat + c.lifespan := by
    intro id t ht
    have hlt := hscheduled.nextSweep_lt id t ht
    rw [hconfig] at hlt
    exact hscheduled.le_nextSweep.trans_lt hlt
  refine ⟨hyoung, Register.size_le_card fun id t ht => mem_countedWithin.2 ?_⟩
  obtain ⟨r, hr, hle⟩ := (justified_run c (before ++ [call]) id t ht).start_le
  exact ⟨r, hr, (hyoung id t ht).trans_le (Nat.add_le_add_right hle _)⟩

/-- A history in seconds. The sweep at 400 drops bucket 7 and retains bucket 8; the next one is due
at 700. -/
def idleHistory : List Call :=
  [.count 7 ⟨60, noNanos⟩, .count 8 ⟨300, noNanos⟩, .read 5 ⟨400, noNanos⟩]

theorem memory_bound_idleHistory :
    (readings (idleHistory ++ [.read 5 ⟨699, noNanos⟩])).Pairwise (· ≤ ·) ∧
      ((fresh .standard).run (idleHistory ++ [.read 5 ⟨699, noNanos⟩])).size = 1 ∧
      ((fresh .standard).run (idleHistory ++ [.read 5 ⟨699, noNanos⟩])).size ≤ 1 := by
  have hsorted : (readings (idleHistory ++ [.read 5 ⟨699, noNanos⟩])).Pairwise (· ≤ ·) := by decide
  have hcard : (countedWithin Config.standard.lifespan 699000
      (idleHistory ++ [.read 5 ⟨699, noNanos⟩])).card = 1 := by decide
  have hbound := (memory_bound .standard idleHistory (.read 5 ⟨699, noNanos⟩) hsorted).2
  exact ⟨hsorted, by decide +kernel, hbound.trans hcard.le⟩

end Meter

end RateGate
