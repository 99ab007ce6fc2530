import Mathlib.Data.List.Induction
import Mathlib.Tactic.SplitIfs
import RateGate.Time.ClockBoard

/-!
# Families of dials

A clone shows the clock of the dial that it was made from. So the dials of a board fall into
families: a family begins with the dial of a started clock, its founder, and grows by clones of any
of its dials.

* `Partitions` ties the families, which are read off the history alone, to the indices of a board:
  two dials have one founder exactly if they have one clock. Every history of an empty board keeps
  it (`partitions_run`).
* `turn` is what an action makes of the time of one family. `Partitions.read?_act` says that this is
  all that the action does to a dial of that family.
-/

namespace RateGate

namespace ClockBoard

/-! ## Founders -/

/-- The founders of the families of all dials, one action later. -/
def extend (founders : List Nat) : Action → List Nat
  | .start _ => founders ++ [founders.length]
  | .clone dial => founders ++ founders[dial]?.toList
  | .set _ _ | .advance _ _ => founders

/-- For each dial that a history makes, the dial that its family began with. -/
def founders (history : List Action) : List Nat := history.foldl extend []

@[simp] theorem founders_append (history : List Action) (a : Action) :
    founders (history ++ [a]) = extend (founders history) a := by
  simp [founders]

theorem run_append (b : ClockBoard) (past later : List Action) :
    b.run (past ++ later) = (b.run past).run later :=
  List.foldl_append

theorem getElem?_snoc (xs : List Nat) (x i : Nat) :
    (xs ++ [x])[i]? = if i = xs.length then some x else xs[i]? := by
  rcases Nat.lt_trichotomy i xs.length with hlt | rfl | hgt
  · rw [List.getElem?_append_left hlt, if_neg (Nat.ne_of_lt hlt)]
  · rw [List.getElem?_concat_length, if_pos rfl]
  · have hlen : (xs ++ [x]).length ≤ i := by
      rw [List.length_append]
      exact hgt
    rw [List.getElem?_eq_none hlen, if_neg (Nat.ne_of_gt hgt),
      List.getElem?_eq_none (Nat.le_of_lt hgt)]

theorem getElem?_snoc_of_getElem? {xs : List Nat} {k x : Nat} (h : xs[k]? = some x) (i : Nat) :
    (xs ++ [x])[i]? = xs[if i = xs.length then k else i]? := by
  rw [getElem?_snoc]
  split_ifs
  · exact h.symm
  · rfl

/-- The founders part the dials of a board into families: dials have one clock exactly if they have
one founder. -/
structure Partitions (founders : List Nat) (b : ClockBoard) : Prop where
  length_eq : founders.length = b.dials.length
  same_iff : ∀ d e : Nat, founders[d]? = founders[e]? ↔ b.dials[d]? = b.dials[e]?
  /-- A founder is of the family that it began. -/
  founder_self : ∀ f ∈ founders, founders[f]? = some f
  /-- Every dial has a clock. -/
  clock_lt : ∀ index ∈ b.dials, index < b.clocks.length

variable {fs : List Nat} {b : ClockBoard} {dial family : Nat}

theorem Partitions.founder_lt (h : Partitions fs b) {f : Nat} (hf : f ∈ fs) : f < fs.length :=
  (List.getElem?_eq_some_iff.1 (h.founder_self f hf)).1

theorem Partitions.start (h : Partitions fs b) (time : Instant) :
    Partitions (fs ++ [fs.length]) (b.start time) where
  length_eq := by simp [ClockBoard.start, h.length_eq]
  same_iff := by
    intro d e
    -- The new founder and the new clock are told apart from all others.
    have hfounder (i : Nat) : fs[i]? ≠ some fs.length := fun hi =>
      Nat.lt_irrefl _ (h.founder_lt (List.mem_of_getElem? hi))
    have hclock (i : Nat) : b.dials[i]? ≠ some b.clocks.length := fun hi =>
      Nat.lt_irrefl _ (h.clock_lt _ (List.mem_of_getElem? hi))
    simp only [ClockBoard.start, getElem?_snoc, ← h.length_eq]
    split_ifs
    · exact iff_of_true rfl rfl
    · exact iff_of_false (hfounder e).symm (hclock e).symm
    · exact iff_of_false (hfounder d) (hclock d)
    · exact h.same_iff d e
  founder_self := by
    intro f hf
    rw [getElem?_snoc]
    rcases List.mem_append.1 hf with hold | hnew
    · rw [if_neg (Nat.ne_of_lt (h.founder_lt hold)), h.founder_self f hold]
    · rw [List.mem_singleton.1 hnew, if_pos rfl]
  clock_lt := by
    intro index hindex
    simp only [ClockBoard.start, List.mem_append, List.mem_singleton, List.length_append,
      List.length_singleton] at hindex ⊢
    rcases hindex with hold | rfl
    · exact Nat.lt_succ_of_lt (h.clock_lt index hold)
    · exact Nat.lt_succ_self _

theorem Partitions.clone (h : Partitions fs b) (dial : Nat) :
    Partitions (fs ++ fs[dial]?.toList) (b.clone dial) := by
  cases hf : fs[dial]? with
  | none =>
    have hnone : b.dials[dial]? = none := by
      rw [List.getElem?_eq_none_iff] at hf ⊢
      exact h.length_eq ▸ hf
    simpa [ClockBoard.clone, hnone] using h
  | some f =>
    have hlt : dial < b.dials.length := h.length_eq ▸ (List.getElem?_eq_some_iff.1 hf).1
    have hi : b.dials[dial]? = some b.dials[dial] := List.getElem?_eq_getElem hlt
    simp only [ClockBoard.clone, hi, Option.toList_some]
    refine ⟨by simp [h.length_eq], fun d e => ?_, fun g hg => ?_, fun index hindex => ?_⟩
    -- Both lists end in a copy of the same position, so looking there is looking at the source.
    · rw [getElem?_snoc_of_getElem? hf, getElem?_snoc_of_getElem? hf, getElem?_snoc_of_getElem? hi,
        getElem?_snoc_of_getElem? hi, ← h.length_eq]
      exact h.same_iff _ _
    · have hmem : g ∈ fs := by
        rcases List.mem_append.1 hg with hold | hnew
        · exact hold
        · exact List.mem_singleton.1 hnew ▸ List.mem_of_getElem? hf
      rw [getElem?_snoc, if_neg (Nat.ne_of_lt (h.founder_lt hmem)), h.founder_self g hmem]
    · rcases List.mem_append.1 hindex with hold | hnew
      · exact h.clock_lt index hold
      · exact h.clock_lt index (List.mem_singleton.1 hnew ▸ List.mem_of_getElem? hi)

theorem Partitions.move (h : Partitions fs b) (dial : Nat) (change : HandClock → HandClock) :
    Partitions fs (b.move dial change) := by
  unfold ClockBoard.move
  split
  · exact ⟨h.length_eq, h.same_iff, h.founder_self, by simpa using h.clock_lt⟩
  · exact h

theorem Partitions.act (h : Partitions fs b) (a : Action) : Partitions (extend fs a) (b.act a) := by
  cases a with
  | start time => exact h.start time
  | clone dial => exact h.clone dial
  | set dial time => exact h.move dial _
  | advance dial span => exact h.move dial _

theorem partitions_run (history : List Action) :
    Partitions (founders history) (empty.run history) := by
  induction history using List.reverseRecOn with
  | nil => exact ⟨rfl, fun _ _ => Iff.rfl, by simp [founders], by simp [run, empty]⟩
  | append_singleton history a ih =>
    rw [founders_append, run_append]
    exact ih.act a

/-! ## The time of a family -/

theorem read?_eq_none_of_dials (h : b.dials[dial]? = none) : b.read? dial = none := by
  simp [read?, clock?, h]

theorem read?_congr {d e : Nat} (h : b.dials[d]? = b.dials[e]?) : b.read? d = b.read? e := by
  rw [read?, read?, clock?, clock?, h]

/-- Moving a clock moves the dials that have this clock. -/
theorem read?_move {change : HandClock → HandClock} (turn : Instant → Instant)
    (hturn : ∀ c, (change c).time = turn c.time) (b : ClockBoard) (dial other : Nat) :
    (b.move dial change).read? other =
      if b.dials[other]? = b.dials[dial]? then (b.read? other).map turn else b.read? other := by
  cases hdial : b.dials[dial]? with
  | none =>
    rw [ClockBoard.move, hdial]
    split_ifs with hother
    · rw [read?_eq_none_of_dials hother, Option.map_none]
    · rfl
  | some index =>
    rw [read?, clock?_move hdial]
    split_ifs
    · rw [read?, Option.map_map, Option.map_map]
      exact congrArg (Option.map · _) (funext hturn)
    · rfl

theorem read?_append (hclock : ∀ index ∈ b.dials, index < b.clocks.length)
    (hdial : dial < b.dials.length) (clocks : List HandClock) (dials : List Nat) :
    read? ⟨b.clocks ++ clocks, b.dials ++ dials⟩ dial = b.read? dial := by
  have hlt := hclock _ (List.getElem_mem hdial)
  simp [read?, clock?, List.getElem?_append_left hdial, List.getElem?_eq_getElem hdial,
    List.getElem?_append_left hlt]

/-- What an action makes of the time of a family. -/
def turn (founders : List Nat) (family : Nat) : Action → Instant → Instant
  | .set dial time => if founders[dial]? = some family then fun _ => time else id
  | .advance dial span =>
    if founders[dial]? = some family then fun now => (now.plus? span).getD now else id
  | .start _ | .clone _ => id

theorem Partitions.isSome_read? (h : Partitions fs b) (dial : Nat) :
    (b.read? dial).isSome = fs[dial]?.isSome := by
  rcases Nat.lt_or_ge dial fs.length with hlt | hge
  · have hlt' : dial < b.dials.length := h.length_eq ▸ hlt
    have hclock := h.clock_lt _ (List.getElem_mem hlt')
    simp [read?, clock?, hlt, hlt', hclock]
  · have hge' : b.dials.length ≤ dial := h.length_eq ▸ hge
    simp [read?, clock?, hge, hge']

/-- The dials of a family show the same time. -/
theorem Partitions.read?_eq (h : Partitions fs b) {d e : Nat} (hsame : fs[d]? = fs[e]?) :
    b.read? d = b.read? e :=
  read?_congr ((h.same_iff d e).1 hsame)

/-- Moving the clock of one family turns the time of that family, and of no other. -/
theorem Partitions.read?_move (h : Partitions fs b) (hdial : fs[dial]? = some family)
    {change : HandClock → HandClock} (turn : Instant → Instant)
    (hturn : ∀ c, (change c).time = turn c.time) (target : Nat) :
    (b.move target change).read? dial =
      (b.read? dial).map (if fs[target]? = some family then turn else id) := by
  have hsame : b.dials[dial]? = b.dials[target]? ↔ fs[target]? = some family := by
    rw [← h.same_iff, hdial, eq_comm]
  simp only [ClockBoard.read?_move turn hturn, hsame]
  split_ifs
  · rfl
  · rw [Option.map_id, id]

theorem Partitions.read?_act (h : Partitions fs b) (hdial : fs[dial]? = some family) (a : Action) :
    (b.act a).read? dial = (b.read? dial).map (turn fs family a) := by
  have hlt : dial < b.dials.length := h.length_eq ▸ (List.getElem?_eq_some_iff.1 hdial).1
  cases a with
  | start time =>
    rw [turn, Option.map_id]
    exact read?_append h.clock_lt hlt [.start time] [b.clocks.length]
  | clone source =>
    rw [turn, Option.map_id, ClockBoard.act, ClockBoard.clone]
    split
    · rename_i index _
      simpa using read?_append h.clock_lt hlt [] [index]
    · rfl
  | set target time => exact h.read?_move hdial (fun _ => time) (fun _ => rfl) target
  | advance target span =>
    exact h.read?_move hdial (fun now => (now.plus? span).getD now)
      (HandClock.time_advance · span) target

end ClockBoard

end RateGate
