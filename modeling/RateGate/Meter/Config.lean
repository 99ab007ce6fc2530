import RateGate.Time.Span

/-!
# Configuration of a meter

A meter counts in windows of one length and sweeps at one interval. Both are used in whole
milliseconds and must hold at least one; the window is checked first.
-/

namespace RateGate.Meter

/-- Why a meter cannot be made. -/
inductive ConfigError where
  | windowTooShort (got : Span)
  | sweepIntervalTooShort (got : Span)
  deriving DecidableEq

def ConfigError.message : ConfigError → String
  | .windowTooShort got => "window length must be >= 1ms (got " ++ got.text ++ ")"
  | .sweepIntervalTooShort got => "purge interval must be >= 1ms (got " ++ got.text ++ ")"

/-- The window length and sweep interval of a meter. -/
structure Config where
  window : Span
  sweepInterval : Span
  window_ne_zero : window.millis ≠ 0
  sweepInterval_ne_zero : sweepInterval.millis ≠ 0
  deriving DecidableEq

/-- The window length of a meter that is not configured. -/
def standardWindow : Span := .ofSecs 60

/-- The sweep interval of a meter that is not configured. -/
def standardSweepInterval : Span := .ofSecs 300

namespace Config

def standard : Config := ⟨standardWindow, standardSweepInterval, by decide, by decide⟩

/-- The configuration with these spans, unless one of them is below a millisecond. -/
def make (window sweepInterval : Span) : Except ConfigError Config :=
  if hw : window.millis = 0 then
    .error (.windowTooShort window)
  else if hs : sweepInterval.millis = 0 then
    .error (.sweepIntervalTooShort sweepInterval)
  else
    .ok ⟨window, sweepInterval, hw, hs⟩

/-- The window length in milliseconds. -/
def width (c : Config) : Word := c.window.millis

/-- The sweep interval in milliseconds. -/
def period (c : Config) : Word := c.sweepInterval.millis

theorem width_pos (c : Config) : 0 < c.width.toNat :=
  Nat.pos_of_ne_zero fun h => c.window_ne_zero (UInt64.toNat_inj.1 h)

end Config

end RateGate.Meter
