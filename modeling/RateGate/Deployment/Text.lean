import RateGate.Deployment.Basic

/-!
# Descriptions

The state of a meter, a clock or a service on one line. A record shows its name and then its fields
in braces, with two dots at the end where fields are left out. A table of entries has its keys
before the colons and no name.

A meter shows all of its state, the tallies in the order of their identifiers. A service is
described with its gate, and the gate with the state of its backend and of its clock. What requests
are told apart by and how they are refused is left out.
-/

namespace RateGate

namespace Record

/-- The entries of a record or table, separated by commas. -/
def entries (fields : List (String × String)) : String :=
  ", ".intercalate (fields.map fun f => f.1 ++ ": " ++ f.2)

/-- A record that shows all its fields. -/
def closed (name : String) (fields : List (String × String)) : String :=
  name ++ " \x7b " ++ entries fields ++ " \x7d"

/-- A record that leaves some fields out. -/
def partly (name : String) (fields : List (String × String)) : String :=
  name ++ " \x7b " ++ entries fields ++ ", .. \x7d"

/-- A table of keys and entries. -/
def table (fields : List (String × String)) : String := "\x7b" ++ entries fields ++ "\x7d"

end Record

open Record

def Tally.text (t : Tally) : String :=
  closed "Counter"
    [("current", toString t.current), ("previous", toString t.previous),
      ("window_start", toString t.start)]

def Register.text (r : Register) : String :=
  closed "CounterStore"
    [("counters", table (r.toList.map fun e => (toString e.1, e.2.text))),
      ("next_purge", toString r.nextSweep)]

def Meter.text (m : Meter) : String :=
  closed "LocalTracker"
    [("store", partly "Mutex" [("data", m.register.text), ("poisoned", "false")]),
      ("window_length", m.config.window.text), ("window_ms", toString m.config.width),
      ("purge_interval", m.config.sweepInterval.text), ("purge_ms", toString m.config.period)]

def Instant.text (t : Instant) : String :=
  closed "SystemTime" [("tv_sec", toString t.secs.toInt), ("tv_nsec", toString t.nanos.val)]

/-- The description of a clock shows its time and its mark. -/
def HandClock.text (c : HandClock) : String :=
  closed "ManualClock"
    [("now", partly "Mutex" [("data", c.time.text), ("poisoned", toString c.overran)])]

namespace Deployment

def backendText : AnyBackend → String
  | .inl meter => meter.text
  | .inr _ => "Scripted"

def timerText (d : Deployment) : Timer → Except Fault String
  | .wall => return "SystemClock"
  | .dial index => do
    let clock ← orAbsent (d.clocks.clock? index)
    return clock.text

def gateText (d : Deployment) (g : Gate) : Except Fault String := do
  let backend ← d.backend g.backend
  let clock ← d.timerText g.timer
  return partly "ThrottleLayer"
    [("limit", toString g.policy.limit), ("tracker", backendText backend), ("clock", clock)]

def serviceText (d : Deployment) (s : Service) : Except Fault String := do
  return closed "ThrottleService" [("inner", "Inner"), ("layer", ← d.gateText s.gate)]

end Deployment

end RateGate
