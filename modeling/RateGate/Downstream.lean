import RateGate.Http.Message

/-!
# Downstream services

What stands behind a gate answers a request with a response or an error of its own, and may change
in doing so. A service also says whether it is ready for a request.

A canned service answers every request the same way and counts its requests. Requests reach it
through clients; a client notes that it found the service ready, and if it is used without that,
the call is marked as unready.

Any service can be listened in on (`Tapped`): it answers as before, and what reaches it is noted.
-/

namespace RateGate

/-- A service that answers requests, or fails with an error of type `ε`. -/
class Downstream (δ : Type) (ε : outParam Type) where
  call : δ → Request → Except ε Response × δ

/-- A service whose line is tapped. -/
structure Tapped (δ : Type) where
  service : δ
  /-- The requests that have reached it. -/
  heard : List Request

instance {δ ε : Type} [Downstream δ ε] : Downstream (Tapped δ) ε where
  call t r :=
    let reply := Downstream.call t.service r
    (reply.1, ⟨reply.2, t.heard ++ [r]⟩)

/-- What a service answers when asked whether it is ready. -/
inductive Readiness where
  | ready
  | pending
  | failed (text : String)
  deriving DecidableEq

/-- A service with a prepared answer. -/
structure Canned where
  template : Template
  /-- The error given instead of a response, if any. -/
  failure : Option String
  readiness : Readiness
  /-- How many requests it has answered. -/
  calls : Nat

namespace Canned

/-- The prepared answer to a request. -/
def answer (c : Canned) (r : Request) : Except String Response :=
  match c.failure with
  | some text => .error text
  | none => .ok (c.template.fill r)

/-- A client of a canned service. -/
structure Client where
  service : Canned
  /-- Whether this client has found the service ready. -/
  ready : Bool
  /-- Whether this client was used without having found the service ready. -/
  unreadyCall : Bool

instance : Downstream Client String where
  call c r :=
    (c.service.answer r,
      { c with
        service := { c.service with calls := c.service.calls + 1 }
        unreadyCall := c.unreadyCall || !c.ready })

end Canned

end RateGate
