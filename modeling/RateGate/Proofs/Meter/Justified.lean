import RateGate.Proofs.Meter.History

/-!
# Tallies and their events

What a meter holds of an identifier, and what it answers about it, is backed by events that were
counted, whatever the times of the calls: they may fall back by any amount, lie before the epoch, or
pass the last millisecond that a word can hold.

**Theorem (`backed_by_events`).** In every history of a fresh meter each tally is `Justified` by the
events of its identifier, no answer exceeds their number, and the answer to a count is at least one.

The invariant speaks of one tally and the list of its identifier's events alone. It need not say
which event counted into which window, so a tally that was dropped and made again, at a time before
the old one, keeps it: the new tally is justified by the new event, and the list has only grown.
-/

namespace RateGate

/-! ## One tally -/

/-- A tally holds no more than the events of its identifier account for, given by their readings. -/
structure Tally.Justified (width : Word) (events : List Nat) (t : Tally) : Prop where
  /-- The window starts at a multiple of the width. -/
  dvd_start : width.toNat ∣ t.start.toNat
  /-- The window does not start after the latest event. -/
  start_le : ∃ r ∈ events, t.start.toNat ≤ r
  /-- The window holds an event. -/
  current_pos : 0 < t.current.toNat
  /-- Events are carried over only from a window that there is. -/
  width_le : 0 < t.previous.toNat → width.toNat ≤ t.start.toNat
  /-- The events of both windows are different events of the identifier. -/
  sum_le : t.current.toNat + t.previous.toNat ≤ events.length

namespace Tally.Justified

variable {width now : Word} {es : List Nat} {t : Tally}

theorem first (width now : Word) (es : List Nat) :
    (Tally.first (Slot.ofReading width now).start).Justified width (es ++ [now.toNat]) where
  dvd_start := ⟨_, by rw [Tally.first, Slot.toNat_start, Nat.mul_comm]⟩
  start_le := by
    refine ⟨now.toNat, List.mem_append_right _ (List.mem_singleton_self _), ?_⟩
    rw [Tally.first, Slot.toNat_start]
    exact Nat.div_mul_le_self _ _
  current_pos := Nat.one_pos
  width_le := by
    intro h
    exact absurd h (Nat.lt_irrefl 0)
  sum_le := by
    rw [List.length_append]
    exact Nat.le_add_left _ _

theorem hit (h : t.Justified width es) (now : Word) :
    (t.hit (.ofReading width now)).Justified width (es ++ [now.toNat]) := by
  have hone : (1 : Word).toNat = 1 := rfl
  have hcurrent := h.current_pos
  have hsum := h.sum_le
  rw [Tally.hit]
  split_ifs with hlate hbefore
  -- The window stays, and the event that justified its start still does: this one may be late.
  · obtain ⟨r, hr, hle⟩ := h.start_le
    refine ⟨h.dvd_start, ⟨r, List.mem_append_left _ hr, hle⟩, ?_, h.width_le, ?_⟩
    · rw [Word.toNat_satAdd, hone]
      omega
    · show (Word.satAdd t.current 1).toNat + t.previous.toNat ≤ _
      rw [List.length_append, List.length_singleton, Word.toNat_satAdd, hone]
      omega
  -- The window before the slot's is the tally's, so there is one, and its events are carried over.
  · have hstart := (Slot.some_eq_before_iff width now t.start).1 hbefore
    have hfirst := first width now es
    refine ⟨hfirst.dvd_start, hfirst.start_le, hfirst.current_pos, ?_, ?_⟩
    · intro _
      exact (Nat.le_add_left _ _).trans hstart.le
    · show (1 : Word).toNat + t.current.toNat ≤ _
      rw [List.length_append, List.length_singleton, hone]
      omega
  -- The window of the tally is too old, and nothing is carried over.
  · exact first width now es

theorem add {tally? : Option Tally} (h : ∀ t, tally? = some t → t.Justified width es) (now : Word) :
    (Tally.add (.ofReading width now) tally?).Justified width (es ++ [now.toNat]) := by
  cases tally? with
  | none => exact first width now es
  | some t => exact (h t rfl).hit now

end Tally.Justified

/-! ## Histories -/

namespace Meter

/-- Every tally of a meter is justified by the events that the calls counted for its identifier. -/
def Justified (m : Meter) (calls : List Call) : Prop :=
  ∀ id t, m.register.get? id = some t → t.Justified m.config.width (events id calls)

theorem justified_fresh (c : Config) : (fresh c).Justified [] := by
  intro id t h
  rw [get?_fresh] at h
  cases h

/-- One more call, at any time, keeps all tallies justified. -/
theorem Justified.reply {m : Meter} {calls : List Call} (h : m.Justified calls) (c : Call) :
    (m.reply c).meter.Justified (calls ++ [c]) := by
  have hseen : ∀ id t, m.seen c.reading id = some t →
      t.Justified m.config.width (events id calls) := by
    intro id t ht
    exact h id t (seen_eq_some_iff.1 ht).1
  intro id t ht
  rw [get?_reply] at ht
  rw [config_reply, events_append]
  split_ifs at ht ⊢ with hcounts
  · cases ht
    exact Tally.Justified.add (hseen id) c.reading
  · rw [List.append_nil]
    exact hseen id t ht

theorem justified_run (c : Config) (calls : List Call) :
    ((fresh c).run calls).Justified calls := by
  induction calls using List.reverseRecOn with
  | nil => exact justified_fresh c
  | append_singleton calls call ih =>
    rw [run_append]
    exact ih.reply call

/-- **Tallies and answers are backed by events.** In every history of a fresh meter, with calls at
any times in any order: each tally is justified by the events of its identifier, no answer exceeds
the number of events counted for its identifier so far, and a count is told at least one. -/
theorem backed_by_events (c : Config) (calls : List Call) :
    (∀ id t, ((fresh c).run calls).register.get? id = some t →
      t.Justified c.width (events id calls)) ∧
    ∀ call : Call,
      (((fresh c).run calls).reply call).rate.toNat ≤ (events call.id (calls ++ [call])).length ∧
      (call.counts call.id = true → 1 ≤ (((fresh c).run calls).reply call).rate.toNat) := by
  have hconfig : ((fresh c).run calls).config = c := config_run _ _
  have hjustified := justified_run c calls
  refine ⟨fun id t ht => hconfig ▸ hjustified id t ht, fun call => ⟨?_, fun hcounts => ?_⟩⟩
  · rw [rate_reply]
    cases hget : (((fresh c).run calls).reply call).meter.register.get? call.id with
    | none => exact Nat.zero_le _
    | some t => exact (Tally.toNat_rate_le ..).trans (hjustified.reply call _ t hget).sum_le
  · rw [rate_reply, get?_reply, if_pos hcounts, Tally.rateOf_some, Tally.toNat_rateOf_add]
    omega

/-- A history in seconds that falls back before the epoch. Bucket 7 is swept at 1000 and made again
at zero, before the window of its older events. -/
def fallingBack : List Call :=
  [.count 7 ⟨130, noNanos⟩, .count 7 ⟨70, noNanos⟩, .count 8 ⟨1000, noNanos⟩,
    .count 7 ⟨-5, noNanos⟩]

theorem backed_by_events_fallingBack :
    ((fresh .standard).run fallingBack).register.get? 7 = some ⟨1, 0, 0⟩ ∧
      (⟨1, 0, 0⟩ : Tally).Justified 60000 [130000, 70000, 0] := by
  have hget : ((fresh .standard).run fallingBack).register.get? 7 = some ⟨1, 0, 0⟩ := by
    decide +kernel
  exact ⟨hget, (backed_by_events .standard fallingBack).1 7 _ hget⟩

end Meter

end RateGate
