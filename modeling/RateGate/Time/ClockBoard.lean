import RateGate.Time.HandClock

/-!
# Boards of clocks

A board holds hand-driven clocks. A clock is seen through dials: starting a clock adds one dial for
it, cloning a dial adds another dial for the same clock, and moving a clock through one of its dials
moves it for all of them (`read?_move`).

Actions are data, so that a history of a board is a list. An action may fail, because the dial does
not exist or because the clock would pass the last instant. After a failure every dial shows what it
showed before.
-/

namespace RateGate

/-- Clocks and the dials that show them. -/
structure ClockBoard where
  clocks : List HandClock
  /-- For each dial the index of its clock. -/
  dials : List Nat

namespace ClockBoard

/-- Why an action on a board fails. -/
inductive Fault where
  | noDial
  /-- A clock would pass the last instant. -/
  | overrun
  deriving DecidableEq

def empty : ClockBoard := ⟨[], []⟩

/-- A new clock with a dial of its own. -/
def start (b : ClockBoard) (time : Instant) : ClockBoard :=
  ⟨b.clocks ++ [.start time], b.dials ++ [b.clocks.length]⟩

/-- The board whose only clock starts at `time`. -/
def single (time : Instant) : ClockBoard := empty.start time

/-- The clock that a dial shows. -/
def clock? (b : ClockBoard) (dial : Nat) : Option HandClock :=
  b.dials[dial]?.bind fun index => b.clocks[index]?

/-- What a dial shows. -/
def read? (b : ClockBoard) (dial : Nat) : Option Instant := (b.clock? dial).map HandClock.time

/-- Another dial for the clock that `dial` shows. -/
def clone (b : ClockBoard) (dial : Nat) : ClockBoard :=
  match b.dials[dial]? with
  | some index => { b with dials := b.dials ++ [index] }
  | none => b

/-- Change the clock that `dial` shows. -/
def move (b : ClockBoard) (dial : Nat) (change : HandClock → HandClock) : ClockBoard :=
  match b.dials[dial]? with
  | some index => { b with clocks := b.clocks.modify index change }
  | none => b

/-- What can be done to a board. -/
inductive Action where
  | start (time : Instant)
  | clone (dial : Nat)
  | set (dial : Nat) (time : Instant)
  | advance (dial : Nat) (span : Span)
  deriving DecidableEq

/-- The board after an action. -/
def act (b : ClockBoard) : Action → ClockBoard
  | .start time => b.start time
  | .clone dial => b.clone dial
  | .set dial time => b.move dial fun c => c.set time
  | .advance dial span => b.move dial fun c => c.advance span

/-- Why an action fails, if it does. -/
def fault? (b : ClockBoard) : Action → Option Fault
  | .start _ => none
  | .clone dial | .set dial _ => if (b.clock? dial).isSome then none else some .noDial
  | .advance dial span =>
    match b.clock? dial with
    | none => some .noDial
    | some c => if (c.time.plus? span).isSome then none else some .overrun

/-- The board after a history of actions. -/
def run (b : ClockBoard) (history : List Action) : ClockBoard := history.foldl act b

/-! ## What dials show -/

/-- Moving a clock moves it for all its dials and for no other. -/
theorem clock?_move {b : ClockBoard} {dial index : Nat} (h : b.dials[dial]? = some index)
    (change : HandClock → HandClock) (other : Nat) :
    (b.move dial change).clock? other =
      if b.dials[other]? = some index then (b.clock? other).map change else b.clock? other := by
  simp only [move, h, clock?]
  cases hother : b.dials[other]? with
  | none => simp
  | some found =>
    by_cases hfound : found = index
    · subst hfound
      simp [List.getElem?_modify]
    · simp [List.getElem?_modify, hfound, Ne.symm hfound]

end ClockBoard

end RateGate
