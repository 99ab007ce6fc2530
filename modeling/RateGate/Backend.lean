import RateGate.Event

/-!
# Backends

A backend is whatever counts requests for a gate: it tells its window length, and answers a call
with a rate or a failure. Answering may change it and may cause events. A meter is a backend that
never fails.

A scripted backend gives prepared answers in order, whatever it is asked. Its last answer repeats
for ever. It stands in for a backend that is out of reach or counts badly.
-/

namespace RateGate

/-- The answer of a backend to a call: a rate or a failure, the backend afterwards, the events. -/
structure Backend.Reply (β : Type) where
  answer : Except BackendError Word
  backend : β
  events : List Event

/-- Something that counts events per identifier. -/
class Backend (β : Type) where
  window : β → Span
  reply : β → Call → Backend.Reply β

namespace Backend

/-- The reply of a backend as part of a larger one. -/
def Reply.map {α β : Type} (embed : α → β) (r : Reply α) : Reply β :=
  ⟨r.answer, embed r.backend, r.events⟩

/-- The last of `n` replies to the same call, with the events of all. Each call is made, whatever
the ones before came to. -/
def replyTimes {β : Type} [Backend β] (b : β) (c : Call) : Nat → Reply β
  | 0 => ⟨.ok 0, b, []⟩
  | n + 1 =>
    let earlier := replyTimes b c n
    let last := reply earlier.backend c
    { last with events := earlier.events ++ last.events }

end Backend

instance : Backend Meter where
  window m := m.config.window
  reply m c :=
    let r := m.reply c
    ⟨.ok r.rate, r.meter, r.sweep.toList.map .swept⟩

/-- A backend that gives the answer `next`, then those of `later`. -/
structure Scripted where
  window : Span
  next : Except BackendError Word
  later : List (Except BackendError Word)

namespace Scripted

/-- The backend with these answers, if there are any. -/
def ofList? (window : Span) : List (Except BackendError Word) → Option Scripted
  | [] => none
  | next :: later => some ⟨window, next, later⟩

/-- The backend after one answer. -/
def advance (s : Scripted) : Scripted :=
  match s.later with
  | [] => s
  | next :: later => { s with next, later }

instance : Backend Scripted where
  window := Scripted.window
  reply s _ := ⟨s.next, s.advance, []⟩

end Scripted

/-- A backend of either of two kinds. -/
instance {α β : Type} [Backend α] [Backend β] : Backend (α ⊕ β) where
  window
    | .inl a => Backend.window a
    | .inr b => Backend.window b
  reply
    | .inl a, c => (Backend.reply a c).map .inl
    | .inr b, c => (Backend.reply b c).map .inr

end RateGate
