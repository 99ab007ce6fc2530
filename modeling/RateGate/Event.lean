import RateGate.Extractor
import RateGate.Meter.Basic

/-!
# Failures and events

A meter never fails. A backend that keeps its counts elsewhere may be out of reach, or may find
counts that it cannot use.

An event is worth a line in a log: a sweep that dropped something, and for each request how it was
decided. It has a level, a message and named fields, all of them text.
-/

namespace RateGate

/-- Why a backend gave no rate. -/
inductive BackendError where
  | unavailable (text : String)
  | corrupt (id : Identifier) (reason : String)
  deriving DecidableEq

def BackendError.message : BackendError → String
  | .unavailable text => "tracker backend unavailable: " ++ text
  | .corrupt id reason =>
    "tracker backend returned corrupt state for id " ++ toString id ++ ": " ++ reason

inductive Level where
  | trace
  | debug
  | warn
  deriving DecidableEq

def Level.text : Level → String
  | .trace => "TRACE"
  | .debug => "DEBUG"
  | .warn => "WARN"

inductive Event where
  | swept (sweep : Meter.Sweep)
  | extractionFailed (cause : ExtractError)
  | countingFailed (id : Identifier) (cause : BackendError)
  | limitExceeded (id : Identifier) (rate limit : Word)
  | forwarding (id : Identifier) (rate limit : Word)
  deriving DecidableEq

namespace Event

def level : Event → Level
  | .swept _ => .trace
  | .extractionFailed _ | .countingFailed .. | .limitExceeded .. => .warn
  | .forwarding .. => .debug

def message : Event → String
  | .swept _ => "purged stale counters"
  | .extractionFailed _ => "throttle: request mapper failed"
  | .countingFailed .. => "throttle: tracker increment failed"
  | .limitExceeded .. => "throttle: limit exceeded"
  | .forwarding .. => "throttle: forwarding"

def fields : Event → List (String × String)
  | .swept sweep => [("removed", toString sweep.removed), ("remaining", toString sweep.remaining)]
  | .extractionFailed cause => [("error", cause.message)]
  | .countingFailed id cause => [("id", toString id), ("error", cause.message)]
  | .limitExceeded id rate limit | .forwarding id rate limit =>
    [("id", toString id), ("rate", toString rate), ("limit", toString limit)]

end Event

end RateGate
