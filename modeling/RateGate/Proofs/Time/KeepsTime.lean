import Mathlib.Data.List.Induction
import RateGate.Proofs.Time.Families

/-!
# Clocks against their history

**Theorem (`keepsTime_run`).** After any history, the dials of one family show the same time: the
time that the family was last set to, or started at, and the exact sum of the spans by which it was
advanced since. An advance fails exactly where the sum would pass the last instant. It then leaves
no trace: whatever is done later comes out as if it had never been tried. Nothing done to one
family moves another.

A history tells one time only of a family (`Tells.unique`), so there is no other clock that keeps
time.

The time of a family is that of its founder, so the induction on the history (`exists_tells`)
follows founders only. An action puts a family at a time, or it turns its time by what the family
gains (`ticks_turn`).

`Alike` boards have the same dials and show the same times. A board after a failed advance is alike
to the one before it (`alike_of_overrun`), and alike boards stay so (`Alike.run`); they differ only
in the mark that the failure left on a clock.
-/

namespace RateGate

theorem Instant.ticks_eq_iff {t : Instant} {n : Int} :
    t.ticks = n ↔ t.secs.toInt = n / 1000000000 ∧ (t.nanos.val : Int) = n % 1000000000 := by
  have hnanos := t.nanos.isLt
  rw [ticks]
  omega

theorem Instant.ext_ticks {t u : Instant} (h : t.ticks = u.ticks) : t = u := by
  obtain ⟨hsecs, hnanos⟩ := ticks_eq_iff.1 h
  obtain ⟨hsecs', hnanos'⟩ := ticks_eq_iff.1 (rfl : u.ticks = u.ticks)
  have hs : t.secs = u.secs := Int64.toInt_inj.1 (hsecs.trans hsecs'.symm)
  have hn : t.nanos = u.nanos := Fin.ext (Int.ofNat_inj.1 (hnanos.trans hnanos'.symm))
  cases t
  cases u
  cases hs
  cases hn
  rfl

namespace ClockBoard

variable {history : List Action} {a : Action} {fs : List Nat} {b b' : ClockBoard}
  {dial family : Nat} {now : Instant} {span : Span}

/-! ## The history of a family -/

/-- The time that an action puts a family at, by starting it or by setting one of its dials. -/
def put? (past : List Action) (family : Nat) : Action → Option Instant
  | .start time => if (founders past).length = family then some time else none
  | .set dial time => if (founders past)[dial]? = some family then some time else none
  | .clone _ | .advance _ _ => none

/-- The nanoseconds by which an action advances a family: those of the span, or none if it fails. -/
def gain (past : List Action) (family : Nat) : Action → Nat
  | .advance dial span =>
    if (founders past)[dial]? = some family ∧
      (empty.run past).fault? (.advance dial span) = none then span.ticks else 0
  | .start _ | .clone _ | .set _ _ => 0

/-- The nanoseconds by which later actions advance a family in all. -/
def gained (family : Nat) (past : List Action) : List Action → Nat
  | [] => 0
  | a :: later => gain past family a + gained family (past ++ [a]) later

/-- After `past` the action `a` puts a family at a time, and none of the later ones does. -/
structure LastPut (past : List Action) (a : Action) (later : List Action) (family : Nat)
    (time : Instant) : Prop where
  put?_eq : put? past family a = some time
  put?_later : ∀ before c after, later = before ++ c :: after →
    put? (past ++ a :: before) family c = none

/-- The time of a family by its history: the time last put, and the nanoseconds gained since, with
the second and its part in normal form. -/
def Tells (history : List Action) (family : Nat) (now : Instant) : Prop :=
  ∃ past a later time, history = past ++ a :: later ∧ LastPut past a later family time ∧
    now.secs.toInt = (time.ticks + gained family (past ++ [a]) later) / 1000000000 ∧
    (now.nanos.val : Int) = (time.ticks + gained family (past ++ [a]) later) % 1000000000

theorem gained_append (family : Nat) (past later : List Action) (a : Action) :
    gained family past (later ++ [a]) =
      gained family past later + gain (past ++ later) family a := by
  induction later generalizing past with
  | nil => simp [gained]
  | cons c later ih => simp [gained, ih, Nat.add_assoc]

theorem LastPut.append {past later : List Action} {a c : Action} {time : Instant}
    (h : LastPut past a later family time) (hc : put? (past ++ a :: later) family c = none) :
    LastPut past a (later ++ [c]) family time where
  put?_eq := h.put?_eq
  put?_later := by
    intro before d after heq
    rcases List.eq_nil_or_concat after with rfl | ⟨after, e, rfl⟩
    · obtain ⟨rfl, rfl⟩ := List.append_singleton_inj.1 heq
      exact hc
    · rw [List.concat_eq_append, ← List.cons_append, ← List.append_assoc] at heq
      exact h.put?_later before d after (List.append_singleton_inj.1 heq).1

/-- An action that puts a family at a time begins what the history tells of it anew. -/
theorem tells_of_put (h : put? history family a = some now) :
    Tells (history ++ [a]) family now := by
  refine ⟨history, a, [], now, rfl, ⟨h, ?_⟩, Instant.ticks_eq_iff.1 (Int.add_zero _).symm⟩
  intro before c after heq
  simp at heq

/-- Any other action adds what the family gains by it. -/
theorem Tells.append {next : Instant} (h : Tells history family now)
    (hput : put? history family a = none) (hgain : next.ticks = now.ticks + gain history family a) :
    Tells (history ++ [a]) family next := by
  obtain ⟨past, c, later, time, rfl, hlast, hnow⟩ := h
  refine ⟨past, c, later ++ [a], time, by simp, hlast.append hput, Instant.ticks_eq_iff.1 ?_⟩
  have hsplit : past ++ [c] ++ later = past ++ c :: later := by simp
  rw [hgain, Instant.ticks_eq_iff.2 hnow, gained_append, hsplit]
  omega

theorem LastPut.eq_nil {past past' later later' between : List Action} {a a' : Action}
    {time time' : Instant} (h : LastPut past a later family time)
    (h' : LastPut past' a' later' family time') (hpast : past' = past ++ between)
    (hlater : a :: later = between ++ a' :: later') : between = [] := by
  rcases between with _ | ⟨c, between⟩
  · rfl
  · obtain ⟨rfl, rfl⟩ := List.cons.inj hlater
    have hnone := h.put?_later between a' later' rfl
    rw [← hpast, h'.put?_eq] at hnone
    cases hnone

/-- A history tells one time of a family. -/
theorem Tells.unique {next : Instant} (h : Tells history family now)
    (h' : Tells history family next) : now = next := by
  obtain ⟨past, a, later, time, rfl, hlast, hnow⟩ := h
  obtain ⟨past', a', later', time', heq, hlast', hnext⟩ := h'
  have hsplit : past = past' ∧ a = a' ∧ later = later' := by
    rcases List.append_eq_append_iff.1 heq with ⟨between, hpast, hrest⟩ | ⟨between, hpast, hrest⟩
    · obtain rfl := hlast.eq_nil hlast' hpast hrest
      exact ⟨(hpast.trans (List.append_nil _)).symm, List.cons.inj hrest⟩
    · obtain rfl := hlast'.eq_nil hlast hpast hrest
      obtain ⟨ha, hrest⟩ := List.cons.inj hrest
      exact ⟨hpast.trans (List.append_nil _), ha.symm, hrest.symm⟩
  obtain ⟨rfl, rfl, rfl⟩ := hsplit
  obtain rfl : time = time' := Option.some.inj (hlast.put?_eq.symm.trans hlast'.put?_eq)
  exact Instant.ext_ticks
    ((Instant.ticks_eq_iff.2 hnow).trans (Instant.ticks_eq_iff.2 hnext).symm)

theorem mem_founders_of_put?_eq_none (h : family ∈ founders (history ++ [a]))
    (hput : put? history family a = none) : family ∈ founders history := by
  rw [founders_append] at h
  cases a with
  | start time =>
    rcases List.mem_append.1 h with hold | hnew
    · exact hold
    · rw [put?, if_pos (List.mem_singleton.1 hnew).symm] at hput
      cases hput
  | clone dial =>
    rcases List.mem_append.1 h with hold | hnew
    · exact hold
    · exact List.mem_of_getElem? (Option.mem_toList.1 hnew)
  | set dial time => exact h
  | advance dial span => exact h

theorem fault?_advance (h : b.read? dial = some now) (span : Span) :
    b.fault? (.advance dial span) =
      if Instant.last.ticks < now.ticks + span.ticks then some .overrun else none := by
  obtain ⟨c, hc, rfl⟩ := Option.map_eq_some_iff.1 h
  rw [fault?, hc]
  simp only [← Instant.plus?_eq_none_iff]
  cases c.time.plus? span <;> simp

theorem read?_of_put (hput : put? history family a = some now) :
    (empty.run (history ++ [a])).read? family = some now := by
  have hpartitions := partitions_run history
  rw [run_append]
  cases a with
  | start time =>
    obtain ⟨rfl, rfl⟩ : (founders history).length = family ∧ time = now := by
      simpa [put?] using hput
    rw [hpartitions.length_eq]
    simp [run, act, start, read?, clock?, HandClock.start]
  | set dial time =>
    obtain ⟨hdial, rfl⟩ : (founders history)[dial]? = some family ∧ time = now := by
      simpa [put?] using hput
    have hself := hpartitions.founder_self family (List.mem_of_getElem? hdial)
    obtain ⟨old, hold⟩ := Option.isSome_iff_exists.1
      ((hpartitions.isSome_read? family).trans (hself ▸ rfl))
    refine (hpartitions.read?_act hself (.set dial time)).trans ?_
    rw [hold, turn, if_pos hdial, Option.map_some]
  | clone dial => cases hput
  | advance dial span => cases hput

/-- An action that does not put a family at a time turns it by what the family gains. -/
theorem ticks_turn (hread : (empty.run history).read? family = some now)
    (hmem : family ∈ founders history) (hput : put? history family a = none) :
    (turn (founders history) family a now).ticks = now.ticks + gain history family a := by
  cases a with
  | start time => exact (Int.add_zero _).symm
  | clone dial => exact (Int.add_zero _).symm
  | set dial time =>
    have hdial : (founders history)[dial]? ≠ some family := by simpa [put?] using hput
    rw [turn, if_neg hdial]
    exact (Int.add_zero _).symm
  | advance dial span =>
    rw [turn, gain]
    by_cases hdial : (founders history)[dial]? = some family
    -- The dial shows the time of the founder, so both sides fail at the same sum.
    · have hself := (partitions_run history).founder_self family hmem
      have hsame := (partitions_run history).read?_eq (hdial.trans hself.symm)
      rw [fault?_advance (hsame.trans hread), if_pos hdial]
      cases hplus : now.plus? span with
      | none =>
        rw [if_pos (Instant.plus?_eq_none_iff.1 hplus)]
        simp
      | some later =>
        have hfits := mt Instant.plus?_eq_none_iff.2 (hplus ▸ Option.some_ne_none later)
        rw [if_neg hfits, if_pos ⟨hdial, rfl⟩]
        exact Instant.ticks_plus? hplus
    · rw [if_neg hdial, if_neg fun h => hdial h.1]
      exact (Int.add_zero _).symm

/-- A founder shows what the history tells of its family. -/
theorem exists_tells (h : family ∈ founders history) :
    ∃ now, (empty.run history).read? family = some now ∧ Tells history family now := by
  induction history using List.reverseRecOn with
  | nil => exact absurd h List.not_mem_nil
  | append_singleton history a ih =>
    -- The action may be the one that starts the family, and only then was it not there before.
    cases hput : put? history family a with
    | some time => exact ⟨time, read?_of_put hput, tells_of_put hput⟩
    | none =>
      have hmem := mem_founders_of_put?_eq_none h hput
      obtain ⟨now, hread, htells⟩ := ih hmem
      have hself := (partitions_run history).founder_self family hmem
      refine ⟨turn (founders history) family a now, ?_, htells.append hput
        (ticks_turn hread hmem hput)⟩
      rw [run_append]
      refine ((partitions_run history).read?_act hself a).trans ?_
      rw [hread, Option.map_some]

/-! ## Failed advances -/

/-- Boards with the same dials, whose clocks show the same times. -/
structure Alike (b b' : ClockBoard) : Prop where
  dials_eq : b.dials = b'.dials
  times_eq : b.clocks.map HandClock.time = b'.clocks.map HandClock.time

theorem read?_eq_times (b : ClockBoard) (dial : Nat) :
    b.read? dial = b.dials[dial]?.bind fun index => (b.clocks.map HandClock.time)[index]? := by
  cases h : b.dials[dial]? <;> simp [read?, clock?, h]

theorem Alike.read?_eq (h : Alike b b') (dial : Nat) : b.read? dial = b'.read? dial := by
  rw [read?_eq_times, read?_eq_times, h.dials_eq, h.times_eq]

/-- Whether an action fails depends on what the dials show. -/
theorem Alike.fault?_eq (h : Alike b b') (a : Action) : b.fault? a = b'.fault? a := by
  have hisSome (dial : Nat) : (b.clock? dial).isSome = (b'.clock? dial).isSome := by
    have hread := congrArg Option.isSome (h.read?_eq dial)
    rwa [read?, read?, Option.isSome_map, Option.isSome_map] at hread
  cases a with
  | start time => rfl
  | clone dial => simp only [fault?, hisSome]
  | set dial time => simp only [fault?, hisSome]
  | advance dial span =>
    cases hread : b.read? dial with
    | none =>
      have hread' := (h.read?_eq dial).symm.trans hread
      rw [fault?, fault?, Option.map_eq_none_iff.1 hread, Option.map_eq_none_iff.1 hread']
    | some now => rw [fault?_advance hread, fault?_advance ((h.read?_eq dial).symm.trans hread)]

theorem map_time_modify {change : HandClock → HandClock} (turn : Instant → Instant)
    (hturn : ∀ c, (change c).time = turn c.time) (clocks : List HandClock) (index : Nat) :
    (clocks.modify index change).map HandClock.time =
      (clocks.map HandClock.time).modify index turn := by
  apply List.ext_getElem?
  intro i
  rw [List.getElem?_map, List.getElem?_modify, List.getElem?_modify, List.getElem?_map]
  cases clocks[i]? with
  | none => rfl
  | some c => by_cases hi : index = i <;> simp [hi, hturn]

theorem Alike.move (h : Alike b b') (dial : Nat) {change : HandClock → HandClock}
    (turn : Instant → Instant) (hturn : ∀ c, (change c).time = turn c.time) :
    Alike (b.move dial change) (b'.move dial change) := by
  rw [ClockBoard.move, ClockBoard.move, ← h.dials_eq]
  split
  · refine ⟨rfl, ?_⟩
    rw [map_time_modify turn hturn, map_time_modify turn hturn, h.times_eq]
  · exact h

theorem Alike.act (h : Alike b b') (a : Action) : Alike (b.act a) (b'.act a) := by
  cases a with
  | start time =>
    have hlength : b.clocks.length = b'.clocks.length := by
      simpa using congrArg List.length h.times_eq
    constructor
    · rw [ClockBoard.act, ClockBoard.act, start, start, h.dials_eq, hlength]
    · simp [ClockBoard.act, start, h.times_eq]
  | clone dial =>
    rw [ClockBoard.act, ClockBoard.act, clone, clone, ← h.dials_eq]
    split
    · exact ⟨rfl, h.times_eq⟩
    · exact h
  | set dial time => exact h.move dial (fun _ => time) fun _ => rfl
  | advance dial span =>
    exact h.move dial (fun now => (now.plus? span).getD now) (HandClock.time_advance · span)

theorem Alike.run (h : Alike b b') (later : List Action) : Alike (b.run later) (b'.run later) := by
  induction later generalizing b b' with
  | nil => exact h
  | cons a later ih => exact ih (h.act a)

/-- A failed advance leaves an alike board. -/
theorem alike_of_overrun (h : b.fault? (.advance dial span) = some .overrun) :
    Alike (b.act (.advance dial span)) b := by
  rw [act, ClockBoard.move]
  split
  · rename_i index hdial
    refine ⟨rfl, List.ext_getElem? fun i => ?_⟩
    rw [List.getElem?_map, List.getElem?_modify, List.getElem?_map]
    cases hclock : b.clocks[i]? with
    | none => rfl
    | some c =>
      -- Only the clock of the dial is touched, and its time is where the sum is out of range.
      by_cases hi : index = i
      · subst hi
        have hplus : c.time.plus? span = none := by
          simpa [fault?, clock?, hdial, hclock] using h
        simp [HandClock.advance, hplus]
      · simp [hi]
  · exact ⟨rfl, rfl⟩

/-! ## All histories -/

/-- The dial that an action is done through. -/
def Action.dial? : Action → Option Nat
  | .start _ => none
  | .clone dial | .set dial _ | .advance dial _ => some dial

/-- What a history of an empty board tells of the board after it. -/
structure KeepsTime (history : List Action) : Prop where
  /-- The dials that there are have a family. -/
  isSome_read? : ∀ dial, ((empty.run history).read? dial).isSome = (founders history)[dial]?.isSome
  /-- The dials of a family show the same time. -/
  read?_eq : ∀ d e : Nat, (founders history)[d]? = (founders history)[e]? →
    (empty.run history).read? d = (empty.run history).read? e
  /-- That is the time that the family was last put at, and the nanoseconds it gained since. -/
  tells : ∀ dial family : Nat, (founders history)[dial]? = some family →
    ∃ now, (empty.run history).read? dial = some now ∧ Tells history family now
  /-- An advance fails exactly if the sum passes the last instant. -/
  fault?_advance : ∀ dial now span, (empty.run history).read? dial = some now →
    (empty.run history).fault? (.advance dial span) =
      if Instant.last.ticks < now.ticks + span.ticks then some .overrun else none
  /-- Nothing else that is done through a dial fails. -/
  fault?_eq_none : ∀ dial, ((empty.run history).read? dial).isSome →
    (empty.run history).fault? (.clone dial) = none ∧
      ∀ time, (empty.run history).fault? (.set dial time) = none
  /-- After a failed advance all dials, and all that is done later, are as if it had not been
  tried. -/
  without_overrun : ∀ dial span,
    (empty.run history).fault? (.advance dial span) = some .overrun → ∀ later : List Action,
      (∀ other, (empty.run (history ++ .advance dial span :: later)).read? other =
        (empty.run (history ++ later)).read? other) ∧
      ∀ a, (empty.run (history ++ .advance dial span :: later)).fault? a =
        (empty.run (history ++ later)).fault? a
  /-- Nothing that is done outside a family moves it. -/
  read?_of_outside : ∀ (dial family : Nat) (a : Action), (founders history)[dial]? = some family →
    (∀ source ∈ a.dial?, (founders history)[source]? ≠ some family) →
    (empty.run (history ++ [a])).read? dial = (empty.run history).read? dial

theorem turn_of_outside (h : ∀ source ∈ a.dial?, fs[source]? ≠ some family) :
    turn fs family a = id := by
  cases a with
  | start time => rfl
  | clone dial => rfl
  | set dial time => exact if_neg (h dial rfl)
  | advance dial span => exact if_neg (h dial rfl)

/-- **Clocks keep time.** Whatever is done to any number of clocks, started at any times and moved
through any of their dials. -/
theorem keepsTime_run (history : List Action) : KeepsTime history where
  isSome_read? := (partitions_run history).isSome_read?
  read?_eq _ _ := (partitions_run history).read?_eq
  tells := by
    intro dial family hdial
    have hmem := List.mem_of_getElem? hdial
    obtain ⟨now, hread, htells⟩ := exists_tells hmem
    have hself := (partitions_run history).founder_self family hmem
    have hsame := (partitions_run history).read?_eq (hdial.trans hself.symm)
    exact ⟨now, hsame.trans hread, htells⟩
  fault?_advance _ _ span hread := ClockBoard.fault?_advance hread span
  fault?_eq_none := by
    intro dial hread
    rw [read?, Option.isSome_map] at hread
    exact ⟨if_pos hread, fun _ => if_pos hread⟩
  without_overrun := by
    intro dial span hfault later
    have halike := (alike_of_overrun hfault).run later
    rw [run_append, run_append]
    exact ⟨halike.read?_eq, halike.fault?_eq⟩
  read?_of_outside := by
    intro dial family a hdial houtside
    rw [run_append]
    refine ((partitions_run history).read?_act hdial a).trans ?_
    rw [turn_of_outside houtside, Option.map_id, id]

def nanosecond : Span := ⟨0, ⟨1, by decide⟩⟩

/-- One clock starts a nanosecond before the epoch, the other in the last second there is. Dials 0
and 2 show the first, dials 1 and 3 the second. -/
def twoClocks : List Action :=
  [.start ⟨-1, Instant.last.nanos⟩, .start ⟨9223372036854775807, noNanos⟩, .clone 0, .clone 1,
    .advance 2 nanosecond, .advance 3 ⟨0, Instant.last.nanos⟩]

/-- The second clock is at the last instant, and no dial of it can be advanced. Trying to changes
nothing, and setting it does not move the first clock. -/
theorem keepsTime_run_twoClocks :
    founders twoClocks = [0, 1, 0, 1] ∧
      (empty.run twoClocks).read? 0 = (empty.run twoClocks).read? 2 ∧
      Tells twoClocks 0 .epoch ∧ Tells twoClocks 1 .last ∧
      (empty.run twoClocks).fault? (.advance 1 nanosecond) = some .overrun ∧
      (empty.run (twoClocks ++ [.advance 1 nanosecond, .set 3 .epoch])).read? 1 =
        (empty.run (twoClocks ++ [.set 3 .epoch])).read? 1 ∧
      (empty.run (twoClocks ++ [.set 3 .epoch])).read? 2 = (empty.run twoClocks).read? 2 := by
  have h := keepsTime_run twoClocks
  have hepoch : (empty.run twoClocks).read? 2 = some .epoch := by decide +kernel
  have hlast : (empty.run twoClocks).read? 1 = some .last := by decide +kernel
  have hpast : Instant.last.ticks < Instant.last.ticks + nanosecond.ticks := by decide
  have hfault := (h.fault?_advance 1 .last nanosecond hlast).trans (if_pos hpast)
  obtain ⟨first, hread, htells⟩ := h.tells 2 0 (by decide)
  obtain ⟨second, hread', htells'⟩ := h.tells 1 1 (by decide)
  cases hread.symm.trans hepoch
  cases hread'.symm.trans hlast
  exact ⟨by decide, h.read?_eq 0 2 (by decide), htells, htells', hfault,
    (h.without_overrun 1 nanosecond hfault [.set 3 .epoch]).1 1,
    h.read?_of_outside 2 0 (.set 3 .epoch) (by decide) (by decide)⟩

end ClockBoard

end RateGate
