import RateGate.Meter.Config
import RateGate.Meter.Register
import RateGate.Time.Instant

/-!
# Meters

A meter counts events per identifier and answers the rate of an identifier at a time. It forgets by
traffic alone: every call first sweeps if a sweep is due, and a sweep drops the tallies whose window
started three window lengths before the call or earlier, all reckoned in saturating words.

A call asks for the rate of an identifier at a time, or to count an event and tell the rate that
includes it. Calls are data, so that a history of a meter is a list of calls; `replies` answers them
one after another.
-/

namespace RateGate

/-- A question to whatever counts. -/
inductive Call where
  | read (id : Identifier) (time : Instant)
  | count (id : Identifier) (time : Instant)
  deriving DecidableEq

/-- A counter of events per identifier. -/
structure Meter where
  config : Meter.Config
  register : Register

namespace Meter

/-- The meter that has counted nothing. -/
def fresh (config : Config) : Meter := ⟨config, .empty⟩

/-- A tally lives until its window is this many window lengths old. -/
def retention : Word := 3

/-- What a sweep found: how many tallies it dropped, and how many it left. -/
structure Sweep where
  removed : Nat
  remaining : Nat
  deriving DecidableEq

/-- The answer to a call: a rate, the meter afterwards, and the sweep if one dropped something. -/
structure Reply where
  rate : Word
  meter : Meter
  sweep : Option Sweep

/-- How many identifiers have a tally. -/
def size (m : Meter) : Nat := m.register.size

/-- The slot of a reading in milliseconds. -/
def slot (m : Meter) (now : Word) : Slot := .ofReading m.config.width now

/-- Up to which start a window is stale at a reading, if any can be. -/
def cutoff? (m : Meter) (now : Word) : Option Word :=
  Word.sub? now (Word.satMul m.config.width retention)

/-- When to sweep next after a sweep at a reading. -/
def nextSweep (m : Meter) (now : Word) : Word := Word.satAdd now m.config.period

/-- Give an identifier a tally. -/
def put (m : Meter) (id : Identifier) (t : Tally) : Meter :=
  { m with register := m.register.insert id t }

/-- Drop the stale tallies if a sweep is due. -/
def sweep (m : Meter) (now : Word) : Option Sweep × Meter :=
  if m.register.sweepDue now then
    match m.cutoff? now with
    | some cutoff =>
      let discarded := m.register.discard cutoff (m.nextSweep now)
      (if discarded.1 = 0 then none else some ⟨discarded.1, discarded.2.size⟩,
        { m with register := discarded.2 })
    | none => (none, { m with register := m.register.postpone (m.nextSweep now) })
  else
    (none, m)

/-- The rate of an identifier at a reading in milliseconds. -/
def readMillis (m : Meter) (id : Identifier) (now : Word) : Reply :=
  let swept := m.sweep now
  match swept.2.register.get? id with
  | none => ⟨0, swept.2, swept.1⟩
  | some t => ⟨t.rate m.config.width (m.slot now), swept.2, swept.1⟩

/-- Count an event of an identifier at a reading in milliseconds; the rate includes it. -/
def countMillis (m : Meter) (id : Identifier) (now : Word) : Reply :=
  let swept := m.sweep now
  let slot := m.slot now
  match swept.2.register.get? id with
  | none => ⟨1, swept.2.put id (.first slot.start), swept.1⟩
  | some t => ⟨t.rateOfHit m.config.width slot, swept.2.put id (t.hit slot), swept.1⟩

/-- The rate of an identifier at a time. -/
def read (m : Meter) (id : Identifier) (time : Instant) : Reply := m.readMillis id time.epochMillis

/-- Count an event of an identifier at a time; the rate includes it. -/
def count (m : Meter) (id : Identifier) (time : Instant) : Reply :=
  m.countMillis id time.epochMillis

/-- The answer to a call. -/
def reply (m : Meter) : Call → Reply
  | .read id time => m.read id time
  | .count id time => m.count id time

/-- The answers to calls one after another. -/
def replies (m : Meter) : List Call → List Reply
  | [] => []
  | c :: calls => m.reply c :: (m.reply c).meter.replies calls

/-- The meter after calls one after another. -/
def run (m : Meter) (calls : List Call) : Meter := calls.foldl (fun m c => (m.reply c).meter) m

/-! ## The configuration stays -/

@[simp] theorem config_sweep (m : Meter) (now : Word) : (m.sweep now).2.config = m.config := by
  unfold sweep
  split
  · cases m.cutoff? now <;> rfl
  · rfl

@[simp] theorem config_readMillis (m : Meter) (id : Identifier) (now : Word) :
    (m.readMillis id now).meter.config = m.config := by
  simp only [readMillis]
  split <;> exact m.config_sweep now

@[simp] theorem config_countMillis (m : Meter) (id : Identifier) (now : Word) :
    (m.countMillis id now).meter.config = m.config := by
  simp only [countMillis]
  split <;> exact m.config_sweep now

@[simp] theorem config_reply (m : Meter) (c : Call) : (m.reply c).meter.config = m.config := by
  cases c with
  | read id time => exact m.config_readMillis id time.epochMillis
  | count id time => exact m.config_countMillis id time.epochMillis

/-! ## What a call does to the tallies -/

@[simp] theorem get?_fresh (c : Config) (id : Identifier) : (fresh c).register.get? id = none :=
  Register.get?_empty id

/-- Whether a call at a reading would drop a tally. -/
def drops (m : Meter) (now : Word) (t : Tally) : Bool :=
  m.register.sweepDue now && (m.cutoff? now).any fun cutoff => decide (t.start ≤ cutoff)

theorem get?_sweep (m : Meter) (now : Word) (id : Identifier) :
    (m.sweep now).2.register.get? id = (m.register.get? id).filter fun t => !m.drops now t := by
  have hkeep : (m.register.get? id).filter (fun _ => true) = m.register.get? id := by
    cases m.register.get? id <;> rfl
  by_cases hdue : m.register.sweepDue now = true
  · cases hcut : m.cutoff? now with
    | none => simp [sweep, drops, hdue, hcut, hkeep]
    | some cutoff =>
      have hlt : ∀ t : Tally, decide (cutoff < t.start) = !decide (t.start ≤ cutoff) := by
        intro t
        rw [← decide_not, decide_eq_decide, UInt64.not_le]
      simp [sweep, drops, hdue, hcut, Register.get?_discard, hlt]
  · simp [sweep, drops, hdue, hkeep]

theorem nextSweep_sweep (m : Meter) (now : Word) :
    (m.sweep now).2.register.nextSweep =
      if m.register.sweepDue now then m.nextSweep now else m.register.nextSweep := by
  unfold sweep
  split
  · cases m.cutoff? now <;> rfl
  · rfl

theorem get?_put (m : Meter) (id : Identifier) (t : Tally) (other : Identifier) :
    (m.put id t).register.get? other = if id = other then some t else m.register.get? other :=
  m.register.get?_insert id t other

/-- Reading changes no more than the sweep before it. -/
@[simp] theorem meter_readMillis (m : Meter) (id : Identifier) (now : Word) :
    (m.readMillis id now).meter = (m.sweep now).2 := by
  simp only [readMillis]
  split <;> rfl

/-- Counting gives the identifier a tally, and else changes no more than the sweep before it. -/
theorem meter_countMillis (m : Meter) (id : Identifier) (now : Word) :
    (m.countMillis id now).meter =
      (m.sweep now).2.put id
        (((m.sweep now).2.register.get? id).elim
          (.first (m.slot now).start) (.hit (m.slot now))) := by
  simp only [countMillis]
  split <;> rename_i h <;> rw [h] <;> rfl

/-! ## Histories -/

@[simp] theorem run_nil (m : Meter) : m.run [] = m := rfl

@[simp] theorem run_cons (m : Meter) (c : Call) (calls : List Call) :
    m.run (c :: calls) = (m.reply c).meter.run calls := rfl

theorem run_append (m : Meter) (calls more : List Call) :
    m.run (calls ++ more) = (m.run calls).run more :=
  List.foldl_append

@[simp] theorem config_run (m : Meter) (calls : List Call) : (m.run calls).config = m.config := by
  induction calls generalizing m with
  | nil => rfl
  | cons c calls ih => rw [run_cons, ih, config_reply]

end Meter

end RateGate
