import RateGate.Backend
import RateGate.Gate.Basic
import RateGate.Gate.Flight
import RateGate.Time.ClockBoard

/-!
# Deployments

A deployment holds what gates share: clocks, backends and the services behind the gates. A service
in front is a gate and a client of the service behind it; several may share the parts behind them.

A request to a service first asks whether the service behind is ready. It is then dispatched: the
client that was found ready goes with the request, and a new client, not yet found ready, takes its
place. A dispatched request may be parked and run later.
-/

namespace RateGate

/-- What a gate counts in: a meter, or a backend with prepared answers. -/
abbrev AnyBackend := Meter ⊕ Scripted

namespace Deployment

/-- A gate in front of a service. -/
structure Service where
  gate : Gate
  /-- Which service stands behind the gate. -/
  inner : Nat
  /-- Whether the client of that service has found it ready. -/
  ready : Bool

/-- A request that has been taken on and not begun. -/
structure Dispatch where
  service : Service
  request : Request

/-- What came of a request. -/
structure Completion where
  result : Except String Response
  /-- How many requests the service behind the gate has answered by now. -/
  calls : Nat
  /-- Whether that service was called by a client that had not found it ready. -/
  unreadyCall : Bool
  events : List Event

/-- Why something cannot be done to a deployment. -/
inductive Fault where
  /-- There is no part with the given index or key. -/
  | absent
  | clock (cause : ClockBoard.Fault)
  | config (cause : Meter.ConfigError)

/-- What a service says to a request: not now, or what came of it. -/
inductive Reception where
  | notReady (readiness : Readiness)
  | completed (completion : Completion)

end Deployment

open Deployment

/-- Gates in front of services, and what they share. -/
structure Deployment where
  /-- What the wall clock shows. -/
  wall : Instant
  clocks : ClockBoard
  backends : List AnyBackend
  inners : List Canned
  services : List Service
  /-- Requests taken on under a key and not begun. -/
  parked : List (String × Dispatch)

namespace Deployment

/-- The part itself, or the fault that it is absent. -/
def orAbsent {α : Type} : Option α → Except Fault α
  | some a => .ok a
  | none => .error .absent

/-- Nothing is set up. -/
def empty (wall : Instant) : Deployment := ⟨wall, .empty, [], [], [], []⟩

/-! ## Setting up -/

def addBackend (d : Deployment) (b : AnyBackend) : Deployment :=
  { d with backends := d.backends ++ [b] }

def addClock (d : Deployment) (time : Instant) : Deployment :=
  { d with clocks := d.clocks.start time }

def service (d : Deployment) (index : Nat) : Except Fault Service := orAbsent d.services[index]?

def backend (d : Deployment) (index : Nat) : Except Fault AnyBackend := orAbsent d.backends[index]?

/-- The gate of a preset. A meter that it brings along becomes the last backend. -/
def preset (d : Deployment) (p : Gate.Preset) : Except Fault (Gate × Deployment) :=
  match p.meterConfig with
  | .error cause => .error (.config cause)
  | .ok none => .ok (p.gate d.backends.length, d)
  | .ok (some config) => .ok (p.gate d.backends.length, d.addBackend (.inl (.fresh config)))

/-- Put a gate in front of a service that is new. -/
def install (d : Deployment) (gate : Gate) (inner : Canned) : Deployment :=
  { d with
    inners := d.inners ++ [inner]
    services := d.services ++ [⟨gate, d.inners.length, false⟩] }

/-- Another service with the same gate in front of the same service. -/
def cloneService (d : Deployment) (index : Nat) : Except Fault Deployment := do
  let s ← d.service index
  return { d with services := d.services ++ [{ s with ready := false }] }

/-! ## Time -/

/-- What a gate's clock shows. -/
def time (d : Deployment) : Timer → Except Fault Instant
  | .wall => .ok d.wall
  | .dial index => orAbsent (d.clocks.read? index)

/-- Move a clock, or mark it if it cannot be moved; and the fault in that case. -/
def moveClock (d : Deployment) (a : ClockBoard.Action) : Option Fault × Deployment :=
  ((d.clocks.fault? a).map .clock, { d with clocks := d.clocks.act a })

/-! ## Requests -/

/-- Ask a service whether it is ready. Its client remembers that it is. -/
def poll (d : Deployment) (index : Nat) : Except Fault (Readiness × Deployment) := do
  let s ← d.service index
  let inner ← orAbsent d.inners[s.inner]?
  match inner.readiness with
  | .ready =>
    return (.ready, { d with services := d.services.set index { s with ready := true } })
  | other => return (other, d)

/-- Take on a request. -/
def dispatch (d : Deployment) (index : Nat) (request : Request) :
    Except Fault (Dispatch × Deployment) := do
  let s ← d.service index
  return (⟨s, request⟩, { d with services := d.services.set index { s with ready := false } })

/-- Run a request that was taken on. -/
def finish (d : Deployment) (x : Dispatch) : Except Fault (Completion × Deployment) := do
  let gate := x.service.gate
  let clock ← d.time gate.timer
  let backend ← d.backend gate.backend
  let inner ← orAbsent d.inners[x.service.inner]?
  let client : Canned.Client := ⟨inner, x.service.ready, false⟩
  let outcome := Flight.settle ⟨gate.policy, x.request⟩ (⟨clock, backend, client⟩ : Site ..)
  let client := outcome.site.inner
  return (⟨outcome.result, client.service.calls, client.unreadyCall, outcome.events⟩,
    { d with
      backends := d.backends.set gate.backend outcome.site.backend
      inners := d.inners.set x.service.inner client.service })

/-- Ask whether a service is ready, unless that is skipped, and take on a request if it is. -/
def offer (d : Deployment) (index : Nat) (request : Request) (skipPoll : Bool) :
    Except Fault (Except Readiness Dispatch × Deployment) := do
  let (readiness, d) ← if skipPoll then pure (.ready, d) else d.poll index
  match readiness with
  | .ready =>
    let (x, d) ← d.dispatch index request
    return (.ok x, d)
  | other => return (.error other, d)

/-- Send a request to a service. -/
def request (d : Deployment) (index : Nat) (request : Request) (skipPoll : Bool) :
    Except Fault (Reception × Deployment) := do
  let (taken, d) ← d.offer index request skipPoll
  match taken with
  | .error readiness => return (.notReady readiness, d)
  | .ok x =>
    let (completion, d) ← d.finish x
    return (.completed completion, d)

/-- Send a request so many times, or until the service is not ready. The receptions come in
order. -/
def burst (d : Deployment) (index : Nat) (request : Request) (skipPoll : Bool) :
    Nat → Except Fault (List Reception × Deployment)
  | 0 => return ([], d)
  | n + 1 => do
    let (reception, d) ← d.request index request skipPoll
    match reception with
    | .notReady _ => return ([reception], d)
    | .completed _ =>
      let (later, d) ← d.burst index request skipPoll n
      return (reception :: later, d)

/-- Take on a request and park it under a key. -/
def park (d : Deployment) (key : String) (index : Nat) (request : Request) (skipPoll : Bool) :
    Except Fault (Readiness × Deployment) := do
  let (taken, d) ← d.offer index request skipPoll
  match taken with
  | .error readiness => return (readiness, d)
  | .ok x =>
    return (.ready, { d with parked := (key, x) :: d.parked.filter fun entry => entry.1 ≠ key })

/-- The parked request of a key, no longer parked. -/
def unpark (d : Deployment) (key : String) : Except Fault (Dispatch × Deployment) := do
  let x ← orAbsent (d.parked.lookup key)
  return (x, { d with parked := d.parked.filter fun entry => entry.1 ≠ key })

/-- Run the parked request of a key. -/
def resume (d : Deployment) (key : String) : Except Fault (Completion × Deployment) := do
  let (x, d) ← d.unpark key
  d.finish x

/-- Ask a backend the same thing so many times. -/
def ask (d : Deployment) (index : Nat) (c : Call) (times : Nat) :
    Except Fault (Backend.Reply AnyBackend × Deployment) := do
  let b ← d.backend index
  let r := Backend.replyTimes b c times
  return (r, { d with backends := d.backends.set index r.backend })

end Deployment

end RateGate
