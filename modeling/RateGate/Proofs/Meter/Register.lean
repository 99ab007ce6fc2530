import Mathlib.Data.Set.Card
import RateGate.Meter.Register

/-!
# A register against its history

A register only keeps the outcome of the edits made to it. What it answers can nevertheless be read
off the edits themselves.

**Theorem (`refines_history`).** After any edits of an empty register, each identifier has the tally
last inserted for it with the changes made since, unless a sweep dropped it on the way. The size is
the number of identifiers with a tally; together with the tallies that were dropped, these are the
tallies inserted where there was none. Two sweeps in a row are one with the larger cutoff, and the
next sweep is due when the last sweep or postponement said.

**Theorem (`Refines.unique`).** That is all there is to a register: no other one is told by the same
edits.

An edit that inserts nothing for an identifier acts on its tally alone (`get?_edit`): it drops it or
writes it anew. So the tally of an identifier is settled by a fold over the edits since its last
insertion (`written`), and by the sweeps that met it (`Survives`).
-/

namespace RateGate

theorem Word.max_lt_iff {a b c : Word} : max a b < c ↔ a < c ∧ b < c := by
  change (if a ≤ b then b else a) < c ↔ _
  simp only [UInt64.lt_iff_toNat_lt, UInt64.le_iff_toNat_le]
  split_ifs <;> omega

namespace Register

/-- Edits in order: how many tallies they dropped in all, and the register after them. -/
def run (r : Register) : List Edit → Nat × Register
  | [] => (0, r)
  | e :: edits =>
    ((r.edit e).1 + ((r.edit e).2.run edits).1, ((r.edit e).2.run edits).2)

theorem run_append (r : Register) (before after : List Edit) :
    (r.run (before ++ after)).2 = ((r.run before).2.run after).2 := by
  induction before generalizing r with
  | nil => rfl
  | cons e before ih => exact ih _

/-! ## The tally of one identifier -/

/-- Whether an edit gives an identifier a tally that does not depend on the one it had. -/
def Edit.inserts (id : Identifier) : Edit → Bool
  | .insert other _ => decide (other = id)
  | _ => false

/-- Whether an edit keeps a tally. -/
def Edit.spares (t : Tally) : Edit → Bool
  | .discard cutoff _ => decide (cutoff < t.start)
  | _ => true

/-- What an edit makes of the tally of an identifier that it keeps. -/
def Edit.write (id : Identifier) (t : Tally) : Edit → Tally
  | .modify other change => if other = id then change t else t
  | _ => t

/-- The tally of an identifier after changes, if it starts as `t`. -/
def written (id : Identifier) (t : Tally) (edits : List Edit) : Tally :=
  edits.foldl (Edit.write id) t

/-- Every sweep among the edits has a cutoff below the start of the tally, as the edits before the
sweep left it. -/
def Survives (id : Identifier) (t : Tally) (edits : List Edit) : Prop :=
  ∀ before cutoff next after, edits = before ++ .discard cutoff next :: after →
    cutoff < (written id t before).start

theorem survives_nil (id : Identifier) (t : Tally) : Survives id t [] := by
  intro before cutoff next after h
  simp at h

theorem survives_cons {id : Identifier} {t : Tally} {e : Edit} {edits : List Edit} :
    Survives id t (e :: edits) ↔ e.spares t = true ∧ Survives id (e.write id t) edits := by
  constructor
  · refine fun h => ⟨?_, fun before cutoff next after heq => ?_⟩
    · cases e with
      | discard cutoff next => exact decide_eq_true (h [] cutoff next edits rfl)
      | _ => rfl
    · exact h (e :: before) cutoff next after (congrArg (e :: ·) heq)
  · rintro ⟨hspares, h⟩ before cutoff next after heq
    cases before with
    | nil =>
      obtain ⟨rfl, -⟩ := List.cons.inj heq
      exact of_decide_eq_true hspares
    | cons e' before =>
      obtain ⟨rfl, htail⟩ := List.cons.inj heq
      exact h before cutoff next after htail

instance decidableSurvives (id : Identifier) :
    ∀ (t : Tally) (edits : List Edit), Decidable (Survives id t edits)
  | t, [] => isTrue (survives_nil id t)
  | t, e :: edits =>
    have := decidableSurvives id (e.write id t) edits
    decidable_of_iff _ survives_cons.symm

/-- An edit that inserts nothing for an identifier drops its tally or writes it anew. -/
theorem get?_edit (r : Register) {id : Identifier} {e : Edit} (h : e.inserts id = false) :
    (r.edit e).2.get? id = ((r.get? id).filter (e.spares ·)).map (e.write id ·) := by
  cases e with
  | insert other t =>
    have hne : other ≠ id := of_decide_eq_false h
    cases hid : r.get? id <;>
      simp [edit, get?_insert, hne, hid, Edit.spares, Edit.write, Option.filter_some]
  | modify other change =>
    cases hid : r.get? id <;>
      by_cases heq : other = id <;>
      simp [edit, get?_modify, heq, hid, Edit.spares, Edit.write, Option.filter_some]
  | discard cutoff next => simp [edit, get?_discard, Edit.spares, Edit.write]
  | postpone next =>
    cases hid : r.get? id <;> simp [edit, hid, Edit.spares, Edit.write, Option.filter_some]

theorem get?_run_of_none {r : Register} {id : Identifier} {edits : List Edit}
    (h : r.get? id = none) (hins : ∀ e ∈ edits, e.inserts id = false) :
    (r.run edits).2.get? id = none := by
  induction edits generalizing r with
  | nil => exact h
  | cons e edits ih =>
    obtain ⟨he, hedits⟩ := List.forall_mem_cons.1 hins
    refine ih ?_ hedits
    rw [get?_edit r he, h]
    rfl

/-- Without an insertion an identifier that has a tally keeps it, as changed by the edits, for as
long as it survives the sweeps. -/
theorem get?_run_of_some {r : Register} {id : Identifier} {t : Tally} {edits : List Edit}
    (h : r.get? id = some t) (hins : ∀ e ∈ edits, e.inserts id = false) :
    (r.run edits).2.get? id =
      if Survives id t edits then some (written id t edits) else none := by
  induction edits generalizing r t with
  | nil =>
    rw [if_pos (survives_nil id t)]
    exact h
  | cons e edits ih =>
    obtain ⟨he, hedits⟩ := List.forall_mem_cons.1 hins
    have hstep := get?_edit r he
    by_cases hspares : e.spares t = true
    · rw [h, Option.filter_some, if_pos hspares] at hstep
      have hiff : Survives id t (e :: edits) ↔ Survives id (e.write id t) edits := by
        rw [survives_cons, and_iff_right hspares]
      exact (ih hstep hedits).trans (if_congr hiff.symm rfl rfl)
    -- Once dropped, nothing brings it back.
    · rw [h, Option.filter_some, if_neg hspares, Option.map_none] at hstep
      rw [if_neg fun hs => hspares (survives_cons.1 hs).1]
      exact get?_run_of_none (r := (r.edit e).2) hstep hedits

/-! ## How many tallies there are -/

theorem size_eq_ncard (r : Register) : r.size = {id | (r.get? id).isSome}.ncard := by
  have hkeys : {id | (r.get? id).isSome} = (r.tallies.keys.toFinset : Set Identifier) := by
    ext id
    rw [Set.mem_ofPred_eq, get?, ← Std.ExtTreeMap.mem_iff_isSome_getElem?, List.coe_toFinset,
      Set.mem_ofPred_eq, Std.ExtTreeMap.mem_keys]
  rw [hkeys, Set.ncard_coe_finset, List.toFinset_card_of_nodup Std.ExtTreeMap.nodup_keys,
    Std.ExtTreeMap.length_keys, size]

theorem isEmpty_iff (r : Register) : r.isEmpty = true ↔ r.size = 0 := by
  rw [isEmpty, Std.ExtTreeMap.isEmpty_eq_size_beq_zero, beq_iff_eq, size]

/-- Whether an edit inserts a tally at an identifier that has none. -/
def admits (r : Register) : Edit → Bool
  | .insert id _ => (r.get? id).isNone
  | _ => false

/-- How many of the edits insert a tally at an identifier that has none by then. -/
def newcomers (r : Register) : List Edit → Nat
  | [] => 0
  | e :: edits => (r.admits e).toNat + (r.edit e).2.newcomers edits

theorem size_insert (r : Register) (id : Identifier) (t : Tally) :
    (r.insert id t).size = r.size + (r.get? id).isNone.toNat := by
  rw [insert, size, Std.ExtTreeMap.size_insert, ← Std.ExtTreeMap.isSome_getElem?_eq_contains]
  cases h : r.get? id <;> rw [get?] at h <;> simp [h, size]

/-- No tally is lost in an edit: it is kept or it is counted as dropped. -/
theorem dropped_add_size_edit (r : Register) (e : Edit) :
    (r.edit e).1 + (r.edit e).2.size = r.size + (r.admits e).toNat := by
  cases e with
  | insert id t => exact (Nat.zero_add _).trans (r.size_insert id t)
  | modify id change => exact (Nat.zero_add _).trans Std.ExtTreeMap.size_modify
  | discard cutoff next =>
    exact Nat.sub_add_cancel Std.ExtTreeMap.size_filter_le_size
  | postpone next => simp [edit, postpone, size, admits]

theorem dropped_add_size_run (r : Register) (edits : List Edit) :
    (r.run edits).1 + (r.run edits).2.size = r.size + r.newcomers edits := by
  induction edits generalizing r with
  | nil => exact Nat.add_comm _ _
  | cons e edits ih =>
    have hstep := r.dropped_add_size_edit e
    have hrest := ih (r.edit e).2
    simp only [run, newcomers]
    omega

/-! ## Sweeps -/

theorem tallies_discard_discard (r : Register) (c n c' n' m : Word) :
    ((r.discard c n).2.discard c' n').2.tallies = (r.discard (max c c') m).2.tallies := by
  apply Std.ExtTreeMap.ext_getElem?
  intro id
  have hone := r.get?_discard (max c c') m id
  have htwo := (r.discard c n).2.get?_discard c' n' id
  rw [r.get?_discard c n, Option.filter_filter] at htwo
  refine htwo.trans (Eq.trans ?_ hone.symm)
  congr 1
  funext t
  rw [← Bool.decide_and]
  exact decide_eq_decide.2 Word.max_lt_iff.symm

/-- Two sweeps in a row keep what one with the larger cutoff keeps, and drop as many. -/
theorem run_discard_discard (r : Register) (c n c' n' m : Word) :
    (r.run [.discard c n, .discard c' n']).2.tallies = (r.run [.discard (max c c') m]).2.tallies ∧
      (r.run [.discard c n, .discard c' n']).1 = (r.run [.discard (max c c') m]).1 := by
  have hkept : (r.run [.discard c n, .discard c' n']).2.tallies =
      (r.run [.discard (max c c') m]).2.tallies := r.tallies_discard_discard c n c' n' m
  refine ⟨hkept, ?_⟩
  -- Neither admits anything, so what they do not keep they drop.
  have htwo := r.dropped_add_size_run [.discard c n, .discard c' n']
  have hone := r.dropped_add_size_run [.discard (max c c') m]
  rw [size, hkept] at htwo
  exact Nat.add_right_cancel (htwo.trans hone.symm)

/-- When an edit says that the next sweep is due. -/
def Edit.next? : Edit → Option Word
  | .discard _ next => some next
  | .postpone next => some next
  | _ => none

/-- When the last of the edits to say so has the next sweep due; at once, if none does. -/
def scheduled (edits : List Edit) : Word :=
  (edits.filterMap Edit.next?).getLast?.getD 0

theorem nextSweep_edit (r : Register) (e : Edit) :
    (r.edit e).2.nextSweep = e.next?.getD r.nextSweep := by
  cases e <;> rfl

theorem nextSweep_run (r : Register) (edits : List Edit) :
    (r.run edits).2.nextSweep = (edits.filterMap Edit.next?).getLast?.getD r.nextSweep := by
  induction edits generalizing r with
  | nil => rfl
  | cons e edits ih =>
    rw [run, ih, nextSweep_edit]
    cases h : e.next? with
    | none => rw [List.filterMap_cons_none h, Option.getD_none]
    | some next => rw [List.filterMap_cons_some h, List.getLast?_cons, Option.getD_some,
        Option.getD_some]

/-! ## Refinement -/

/-- What edits of an empty register tell of the register after them and of the tallies they
dropped. -/
structure Refines (edits : List Edit) (dropped : Nat) (r : Register) : Prop where
  /-- An identifier that nothing was inserted for has no tally. -/
  get?_eq_none : ∀ id, (∀ e ∈ edits, e.inserts id = false) → r.get? id = none
  /-- An identifier has the tally last inserted for it, as changed since, unless a sweep met that
  tally with a cutoff at its start or after it. -/
  get?_eq : ∀ before id t after, edits = before ++ .insert id t :: after →
    (∀ e ∈ after, e.inserts id = false) →
    r.get? id = if Survives id t after then some (written id t after) else none
  size_eq : r.size = {id | (r.get? id).isSome}.ncard
  isEmpty_iff : r.isEmpty = true ↔ r.size = 0
  /-- What was dropped and what is left are the tallies inserted where there was none. -/
  dropped_add_size : dropped + r.size = empty.newcomers edits
  /-- Two sweeps in a row keep and drop as many tallies as one with the larger cutoff. -/
  discard_discard : ∀ c n c' n' m,
    (r.run [.discard c n, .discard c' n']).2.tallies = (r.run [.discard (max c c') m]).2.tallies ∧
      (r.run [.discard c n, .discard c' n']).1 = (r.run [.discard (max c c') m]).1
  sweepDue_iff : ∀ now, r.sweepDue now = true ↔ scheduled edits ≤ now

/-- An identifier that something was inserted for has a last insertion. -/
theorem inserts_eq_false_or_exists_last (id : Identifier) (edits : List Edit) :
    (∀ e ∈ edits, e.inserts id = false) ∨
      ∃ before t after, edits = before ++ .insert id t :: after ∧
        ∀ e ∈ after, e.inserts id = false := by
  induction edits with
  | nil => exact .inl (List.forall_mem_nil _)
  | cons e edits ih =>
    obtain hnone | ⟨before, t, after, rfl, hafter⟩ := ih
    -- If the rest inserts nothing, this edit is the last that may.
    · cases he : e.inserts id with
      | false => exact .inl (List.forall_mem_cons.2 ⟨he, hnone⟩)
      | true =>
        cases e with
        | insert other t =>
          obtain rfl : other = id := of_decide_eq_true he
          exact .inr ⟨[], t, edits, rfl, hnone⟩
        | _ => cases he
    · exact .inr ⟨e :: before, t, after, rfl, hafter⟩

theorem Refines.nextSweep_eq {edits : List Edit} {dropped : Nat} {r : Register}
    (h : Refines edits dropped r) : r.nextSweep = scheduled edits := by
  have hdue := (h.sweepDue_iff r.nextSweep).1 (decide_eq_true (UInt64.le_refl _))
  have hle := of_decide_eq_true ((h.sweepDue_iff (scheduled edits)).2 (UInt64.le_refl _))
  exact UInt64.le_antisymm hle hdue

/-- The edits leave nothing open: they tell one register and one number of tallies dropped. -/
theorem Refines.unique {edits : List Edit} {dropped dropped' : Nat} {r r' : Register}
    (h : Refines edits dropped r) (h' : Refines edits dropped' r') :
    dropped = dropped' ∧ r = r' := by
  have hr : r = r' := by
    refine ext_get? (fun id => ?_) (h.nextSweep_eq.trans h'.nextSweep_eq.symm)
    obtain hnone | ⟨before, t, after, hedits, hafter⟩ := inserts_eq_false_or_exists_last id edits
    · rw [h.get?_eq_none id hnone, h'.get?_eq_none id hnone]
    · rw [h.get?_eq before id t after hedits hafter, h'.get?_eq before id t after hedits hafter]
  refine ⟨?_, hr⟩
  have hsum := h.dropped_add_size.trans h'.dropped_add_size.symm
  rw [hr] at hsum
  exact Nat.add_right_cancel hsum

/-- **Refinement.** After any edits of an empty register, what it holds, how much, what was dropped
and when the next sweep is due are what the edits tell. -/
theorem refines_history (edits : List Edit) :
    Refines edits (empty.run edits).1 (empty.run edits).2 where
  get?_eq_none id := get?_run_of_none (get?_empty id)
  get?_eq before id t after hedits hins := by
    rw [hedits, run_append]
    refine get?_run_of_some ?_ hins
    rw [edit, get?_insert, if_pos rfl]
  size_eq := size_eq_ncard _
  isEmpty_iff := isEmpty_iff _
  dropped_add_size := (dropped_add_size_run empty edits).trans (Nat.zero_add _)
  discard_discard := run_discard_discard _
  sweepDue_iff now := by
    rw [sweepDue, decide_eq_true_eq, nextSweep_run]
    rfl

/-- Identifier 7 moves its start from 100 to 300, so the sweep at 200 drops identifier 8 only. The
sweep at 300 drops both; 7 comes back. -/
def sweptHistory : List Edit :=
  [.insert 7 (.first 100), .insert 8 (.first 200), .modify 7 fun t => { t with start := 300 },
    .discard 200 500, .insert 8 (.first 250), .discard 300 600, .insert 7 (.first 400),
    .modify 7 fun t => { t with current := t.current + 2 }, .postpone 700]

theorem refines_history_sweptHistory :
    (empty.run sweptHistory).2.get? 7 = some ⟨3, 0, 400⟩ ∧
      (empty.run sweptHistory).2.get? 8 = none ∧
      (empty.run sweptHistory).2.get? 9 = none ∧
      (empty.run sweptHistory).1 + (empty.run sweptHistory).2.size = 4 ∧
      (empty.run sweptHistory).2.sweepDue 699 = false := by
  have h := refines_history sweptHistory
  refine ⟨?_, ?_, ?_, ?_, ?_⟩
  · exact (h.get?_eq (sweptHistory.take 6) 7 (.first 400) (sweptHistory.drop 7) rfl
      (by decide)).trans (by decide)
  · exact (h.get?_eq (sweptHistory.take 4) 8 (.first 250) (sweptHistory.drop 5) rfl
      (by decide)).trans (by decide)
  · exact h.get?_eq_none 9 (by decide)
  · exact h.dropped_add_size.trans (by decide +kernel)
  · rw [Bool.eq_false_iff, Ne, h.sweepDue_iff]
    decide

end Register

end RateGate
