import RateGate.Identifier
import RateGate.Meter.Tally
import Std.Data.ExtTreeMap.Lemmas

/-!
# Registers of tallies

A register keeps one tally per identifier and the time from which the next sweep is due. What a
register holds is `get?`; the lemmas say what each operation does to it. Two registers that hold the
same tallies and the same sweep time are equal (`Register.ext_get?`).
-/

namespace RateGate

/-- The tallies of all identifiers and when to sweep them next. -/
structure Register where
  tallies : Std.ExtTreeMap Identifier Tally
  nextSweep : Word

namespace Register

/-- Nothing is tallied, and a sweep is due at once. -/
def empty : Register := ⟨∅, 0⟩

def get? (r : Register) (id : Identifier) : Option Tally := r.tallies[id]?

def insert (r : Register) (id : Identifier) (t : Tally) : Register :=
  { r with tallies := r.tallies.insert id t }

/-- Change the tally of an identifier that has one. -/
def modify (r : Register) (id : Identifier) (change : Tally → Tally) : Register :=
  { r with tallies := r.tallies.modify id change }

/-- How many identifiers have a tally. -/
def size (r : Register) : Nat := r.tallies.size

def isEmpty (r : Register) : Bool := r.tallies.isEmpty

/-- The tallies in the order of their identifiers. -/
def toList (r : Register) : List (Identifier × Tally) := r.tallies.toList

def sweepDue (r : Register) (now : Word) : Bool := decide (r.nextSweep ≤ now)

/-- Drop the tallies whose window starts at the cutoff or before it, and sweep next at `next`. Also
says how many were dropped. -/
def discard (r : Register) (cutoff next : Word) : Nat × Register :=
  let kept := r.tallies.filter fun _ t => decide (cutoff < t.start)
  (r.tallies.size - kept.size, ⟨kept, next⟩)

/-- Sweep next at `next`, and drop nothing. -/
def postpone (r : Register) (next : Word) : Register := { r with nextSweep := next }

/-- What can be done to a register. -/
inductive Edit where
  | insert (id : Identifier) (t : Tally)
  | modify (id : Identifier) (change : Tally → Tally)
  | discard (cutoff next : Word)
  | postpone (next : Word)

/-- The register after an edit, and how many tallies the edit dropped. -/
def edit (r : Register) : Edit → Nat × Register
  | .insert id t => (0, r.insert id t)
  | .modify id change => (0, r.modify id change)
  | .discard cutoff next => r.discard cutoff next
  | .postpone next => (0, r.postpone next)

/-! ## What a register holds -/

@[ext] theorem ext_get? {r s : Register} (htallies : ∀ id, r.get? id = s.get? id)
    (hnext : r.nextSweep = s.nextSweep) : r = s := by
  obtain ⟨rt, rn⟩ := r
  obtain ⟨st, sn⟩ := s
  have : rt = st := Std.ExtTreeMap.ext_getElem? htallies
  subst this
  exact congrArg _ hnext

@[simp] theorem get?_empty (id : Identifier) : empty.get? id = none := by
  simp [empty, get?]

theorem get?_insert (r : Register) (id : Identifier) (t : Tally) (other : Identifier) :
    (r.insert id t).get? other = if id = other then some t else r.get? other := by
  simp [insert, get?, Std.ExtTreeMap.getElem?_insert]

theorem get?_modify (r : Register) (id : Identifier) (change : Tally → Tally)
    (other : Identifier) :
    (r.modify id change).get? other =
      if id = other then (r.get? other).map change else r.get? other := by
  by_cases h : id = other <;> simp [modify, get?, Std.ExtTreeMap.getElem?_modify, h]

theorem get?_discard (r : Register) (cutoff next : Word) (id : Identifier) :
    (r.discard cutoff next).2.get? id =
      (r.get? id).filter fun t => decide (cutoff < t.start) := by
  simp [discard, get?]

@[simp] theorem get?_postpone (r : Register) (next : Word) (id : Identifier) :
    (r.postpone next).get? id = r.get? id := rfl

end Register

end RateGate
