import RateGate.Gate.Policy
import RateGate.Meter.Config

/-!
# Gates

A gate applies a policy, counts in a backend, and reads a clock. Backends and clocks are shared, so
a gate only points at them. A gate is set up from a preset by a list of settings; a later setting
overrides an earlier one of its kind.
-/

namespace RateGate

/-- The clock that a gate reads: the wall clock, or one driven by hand and seen through a dial. -/
inductive Timer where
  | wall
  | dial (index : Nat)
  deriving DecidableEq

structure Gate where
  policy : Policy
  /-- Which backend counts. -/
  backend : Nat
  timer : Timer

namespace Gate

/-- The gate of the standard policy that counts in a backend by the wall clock. -/
def standard (backend : Nat) : Gate := ⟨.standard, backend, .wall⟩

/-- One way to change a gate. -/
inductive Setting where
  | limit (limit : Word)
  | backend (index : Nat)
  | timer (timer : Timer)
  | extractor (extractor : Extractor)
  | exceeded (answer : Request → Response)

/-- The gate after a setting. -/
def set (g : Gate) : Setting → Gate
  | .limit limit => { g with policy := g.policy.withLimit limit }
  | .backend index => { g with backend := index }
  | .timer timer => { g with timer }
  | .extractor extractor => { g with policy := { g.policy with extractor } }
  | .exceeded answer => { g with policy := { g.policy with exceeded := answer } }

/-- The gate after settings, in order. -/
def configure (g : Gate) (settings : List Setting) : Gate := settings.foldl set g

/-- Common ways to set up a gate. -/
inductive Preset where
  /-- The standard policy over a meter of its own. -/
  | standard
  /-- One budget for a whole service, over a meter of its own. -/
  | globalGuard (limit : Word)
  /-- A budget per client address, over a meter of its own with this window. -/
  | perClient (limit : Word) (window : Span)
  /-- A budget per key, counted in a backend that others may use too. -/
  | sharedBudget (backend : Nat) (limit : Word)

namespace Preset

/-- The configuration of the meter that a preset brings along, if it does. -/
def meterConfig : Preset → Except Meter.ConfigError (Option Meter.Config)
  | .standard | .globalGuard _ => .ok (some .standard)
  | .perClient _ window => (Meter.Config.make window Meter.standardSweepInterval).map some
  | .sharedBudget .. => .ok none

/-- The gate of a preset whose own meter, if it brings one along, is the backend `own`. -/
def gate (own : Nat) : Preset → Gate
  | .standard => Gate.standard own
  | .globalGuard limit => (Gate.standard own).set (.limit limit)
  | .perClient limit _ =>
    (Gate.standard own).configure [.limit limit, .extractor (.field .realIp)]
  | .sharedBudget backend limit =>
    (Gate.standard backend).configure [.limit limit, .extractor (.field .apiKey)]

end Preset

/-! ## No gate refuses everything -/

theorem limit_set_ne_zero {g : Gate} (h : g.policy.limit ≠ 0) (s : Setting) :
    (g.set s).policy.limit ≠ 0 := by
  cases s with
  | limit limit => exact g.policy.withLimit_limit_ne_zero limit
  | backend index => exact h
  | timer timer => exact h
  | extractor extractor => exact h
  | exceeded answer => exact h

theorem limit_configure_ne_zero {g : Gate} (h : g.policy.limit ≠ 0) (settings : List Setting) :
    (g.configure settings).policy.limit ≠ 0 := by
  induction settings generalizing g with
  | nil => exact h
  | cons s settings ih => exact ih (limit_set_ne_zero h s)

theorem limit_standard_ne_zero (backend : Nat) : (standard backend).policy.limit ≠ 0 := by
  show Policy.standardLimit ≠ 0
  decide

/-- The limit of a preset is at least one, whatever limit it is given. -/
theorem Preset.limit_gate_ne_zero (own : Nat) (p : Preset) : (p.gate own).policy.limit ≠ 0 := by
  cases p with
  | standard => exact limit_standard_ne_zero own
  | globalGuard limit => exact limit_set_ne_zero (limit_standard_ne_zero own) _
  | perClient limit window => exact limit_configure_ne_zero (limit_standard_ne_zero own) _
  | sharedBudget backend limit => exact limit_configure_ne_zero (limit_standard_ne_zero backend) _

end Gate

end RateGate
