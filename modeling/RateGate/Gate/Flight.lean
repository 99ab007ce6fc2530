import RateGate.Backend
import RateGate.Downstream
import RateGate.Gate.Policy
import RateGate.Quota

/-!
# Requests in flight

A request in flight goes through stages, and every step from one stage to the next touches at most
one thing outside the request: the identifier is extracted, the clock is read, the request is
counted, the decision is taken, and an admitted request is forwarded. Between two steps of one
request, steps of others may happen.

`Flight.step` is one step, `Flight.run` takes all of them without a break. A run always ends with an
answer (`left_run`), which `Flight.settle` gives. The service behind the gate is called in the step
of an admitted request and in no other (`inner_step`), so whoever listens in on it hears just these
(`heard_step`).
-/

namespace RateGate

/-- Something that tells the time. -/
class Timepiece (κ : Type) where
  read : κ → Instant × κ

/-- An instant is a clock that stands still. -/
instance : Timepiece Instant where
  read time := (time, time)

/-- What a request in flight may touch. -/
structure Site (κ β δ : Type) where
  clock : κ
  backend : β
  inner : δ

/-- A request and the policy it is subject to. -/
structure Flight where
  policy : Policy
  request : Request

namespace Flight

/-- How far a request has come. -/
inductive Stage (ε : Type) where
  /-- Nothing has been done. -/
  | arrived
  /-- Its bucket is known. -/
  | identified (id : Identifier)
  /-- The clock has been read for it. -/
  | timed (id : Identifier) (time : Instant)
  /-- It is counted, and the rate includes it. -/
  | counted (id : Identifier) (time : Instant) (window : Span) (rate : Word)
  /-- It may pass, and its response will carry the quota. -/
  | cleared (quota : Quota)
  /-- It has its response, or the error of the service behind the gate. -/
  | answered (result : Except ε Response)

/-- At most how many steps are left. -/
def Stage.left {ε : Type} : Stage ε → Nat
  | .arrived => 5
  | .identified _ => 4
  | .timed .. => 3
  | .counted .. => 2
  | .cleared _ => 1
  | .answered _ => 0

/-- Whether the next step calls the service behind the gate. -/
def Stage.forwards {ε : Type} : Stage ε → Bool
  | .cleared _ => true
  | _ => false

/-- The answer of a stage with no steps left. -/
def Stage.result {ε : Type} : (s : Stage ε) → s.left = 0 → Except ε Response
  | .answered r, _ => r

theorem Stage.exists_answered {ε : Type} {s : Stage ε} (h : s.left = 0) :
    ∃ result, s = .answered result := by
  cases s with
  | answered result => exact ⟨result, rfl⟩
  | _ => cases h

/-- A request under way: the things it may touch, its stage, and the events so far. -/
structure Progress (κ β δ ε : Type) where
  site : Site κ β δ
  stage : Stage ε
  events : List Event

variable {κ β δ ε : Type} [Timepiece κ] [Backend β] [Downstream δ ε]

/-- The answer to a request whose bucket cannot be told. -/
def unidentified : Response := .ofStatus .internalServerError

/-- The answer to a request that could not be counted. -/
def uncounted (window : Span) : Response :=
  (Response.ofStatus .internalServerError).mapFields fun fields => fields.setRetryAfter window

/-- One step of a request. A request that has its answer stays as it is. -/
def step (f : Flight) (p : Progress κ β δ ε) : Progress κ β δ ε :=
  match p.stage with
  | .arrived =>
    match f.policy.extractor f.request with
    | .ok id => { p with stage := .identified id }
    | .error cause =>
      { p with
        stage := .answered (.ok unidentified)
        events := p.events ++ [.extractionFailed cause] }
  | .identified id =>
    let reading := Timepiece.read p.site.clock
    { p with site := { p.site with clock := reading.2 }, stage := .timed id reading.1 }
  | .timed id time =>
    let window := Backend.window p.site.backend
    let reply := Backend.reply p.site.backend (.count id time)
    let site := { p.site with backend := reply.backend }
    match reply.answer with
    | .ok rate => ⟨site, .counted id time window rate, p.events ++ reply.events⟩
    | .error cause =>
      ⟨site, .answered (.ok (uncounted window)),
        p.events ++ reply.events ++ [.countingFailed id cause]⟩
  | .counted id time window rate =>
    let limit := f.policy.limit
    let quota := Quota.make limit rate window time
    if limit < rate then
      { p with
        stage := .answered (.ok ((f.policy.exceeded f.request).mapFields quota.stamp))
        events := p.events ++ [.limitExceeded id rate limit] }
    else
      { p with stage := .cleared quota, events := p.events ++ [.forwarding id rate limit] }
  | .cleared quota =>
    let reply := Downstream.call p.site.inner f.request
    { p with
      site := { p.site with inner := reply.2 }
      stage := .answered (reply.1.map fun response => response.mapFields quota.stamp) }
  | .answered _ => p

/-- So many steps of a request. -/
def advance (f : Flight) : Nat → Progress κ β δ ε → Progress κ β δ ε
  | 0, p => p
  | n + 1, p => f.advance n (f.step p)

/-- All steps of a request, from its arrival to its answer. -/
def run (f : Flight) (site : Site κ β δ) : Progress κ β δ ε :=
  f.advance (Stage.arrived : Stage ε).left ⟨site, .arrived, []⟩

/-! ## One step -/

section Step

variable (f : Flight) (site : Site κ β δ) (events : List Event)

theorem step_arrived {id : Identifier} (h : f.policy.extractor f.request = .ok id) :
    f.step (⟨site, .arrived, events⟩ : Progress κ β δ ε) = ⟨site, .identified id, events⟩ := by
  simp only [step, h]

theorem step_arrived_of_error {cause : ExtractError}
    (h : f.policy.extractor f.request = .error cause) :
    f.step (⟨site, .arrived, events⟩ : Progress κ β δ ε) =
      ⟨site, .answered (.ok unidentified), events ++ [.extractionFailed cause]⟩ := by
  simp only [step, h]

theorem step_identified (id : Identifier) :
    f.step (⟨site, .identified id, events⟩ : Progress κ β δ ε) =
      ⟨{ site with clock := (Timepiece.read site.clock).2 },
        .timed id (Timepiece.read site.clock).1, events⟩ := rfl

theorem step_timed {id : Identifier} {time : Instant} {rate : Word}
    (h : (Backend.reply site.backend (.count id time)).answer = .ok rate) :
    f.step (⟨site, .timed id time, events⟩ : Progress κ β δ ε) =
      ⟨{ site with backend := (Backend.reply site.backend (.count id time)).backend },
        .counted id time (Backend.window site.backend) rate,
        events ++ (Backend.reply site.backend (.count id time)).events⟩ := by
  simp only [step, h]

theorem step_timed_of_error {id : Identifier} {time : Instant} {cause : BackendError}
    (h : (Backend.reply site.backend (.count id time)).answer = .error cause) :
    f.step (⟨site, .timed id time, events⟩ : Progress κ β δ ε) =
      ⟨{ site with backend := (Backend.reply site.backend (.count id time)).backend },
        .answered (.ok (uncounted (Backend.window site.backend))),
        events ++ (Backend.reply site.backend (.count id time)).events ++
          [.countingFailed id cause]⟩ := by
  simp only [step, h]

variable (id : Identifier) (time : Instant) (window : Span) {rate : Word}

theorem step_counted_of_lt (h : f.policy.limit < rate) :
    f.step (⟨site, .counted id time window rate, events⟩ : Progress κ β δ ε) =
      ⟨site,
        .answered (.ok ((f.policy.exceeded f.request).mapFields
          (Quota.make f.policy.limit rate window time).stamp)),
        events ++ [.limitExceeded id rate f.policy.limit]⟩ := by
  simp only [step, h, if_true]

theorem step_counted_of_le (h : rate ≤ f.policy.limit) :
    f.step (⟨site, .counted id time window rate, events⟩ : Progress κ β δ ε) =
      ⟨site, .cleared (Quota.make f.policy.limit rate window time),
        events ++ [.forwarding id rate f.policy.limit]⟩ := by
  simp only [step, if_neg (UInt64.not_lt.2 h)]

theorem step_cleared (quota : Quota) :
    f.step (⟨site, .cleared quota, events⟩ : Progress κ β δ ε) =
      ⟨{ site with inner := (Downstream.call site.inner f.request).2 },
        .answered ((Downstream.call site.inner f.request).1.map
          fun response => response.mapFields quota.stamp), events⟩ := rfl

end Step

@[simp] theorem advance_answered (f : Flight) (n : Nat) (site : Site κ β δ)
    (result : Except ε Response) (events : List Event) :
    f.advance n ⟨site, .answered result, events⟩ = ⟨site, .answered result, events⟩ := by
  induction n with
  | zero => rfl
  | succ n ih => exact ih

/-! ## What reaches the service -/

/-- The service behind the gate is called in one step only, and with the request itself. -/
theorem inner_step (f : Flight) (p : Progress κ β δ ε) :
    (f.step p).site.inner =
      if p.stage.forwards then (Downstream.call p.site.inner f.request).2 else p.site.inner := by
  obtain ⟨site, stage, events⟩ := p
  cases stage with
  | arrived | timed | counted =>
    simp only [step]
    split <;> rfl
  | identified | cleared | answered => rfl

/-- The same request in front of the service itself. -/
def Progress.untap (p : Progress κ β (Tapped δ) ε) : Progress κ β δ ε :=
  ⟨⟨p.site.clock, p.site.backend, p.site.inner.service⟩, p.stage, p.events⟩

/-- A request does not notice that somebody listens in. -/
theorem untap_step (f : Flight) (p : Progress κ β (Tapped δ) ε) :
    (f.step p).untap = f.step p.untap := by
  obtain ⟨⟨clock, backend, inner⟩, stage, events⟩ := p
  cases stage with
  | arrived | timed | counted =>
    simp only [step, Progress.untap]
    split <;> rfl
  | identified | cleared | answered => rfl

theorem heard_step (f : Flight) (p : Progress κ β (Tapped δ) ε) :
    (f.step p).site.inner.heard =
      p.site.inner.heard ++ if p.stage.forwards then [f.request] else [] := by
  rw [inner_step]
  cases p.stage.forwards with
  | true => rfl
  | false => exact (List.append_nil _).symm

/-! ## Every request is answered -/

theorem left_step (f : Flight) (p : Progress κ β δ ε) :
    (f.step p).stage.left ≤ p.stage.left - 1 := by
  obtain ⟨site, stage, events⟩ := p
  cases stage with
  | arrived | timed | counted =>
    simp only [step]
    split <;> simp [Stage.left]
  | identified => exact Nat.le_refl 3
  | cleared | answered => exact Nat.le_refl 0

theorem left_advance (f : Flight) (n : Nat) (p : Progress κ β δ ε) :
    (f.advance n p).stage.left ≤ p.stage.left - n := by
  induction n generalizing p with
  | zero => exact Nat.le_refl _
  | succ n ih =>
    have hrest := ih (f.step p)
    have hstep := f.left_step p
    rw [advance]
    omega

theorem left_run (f : Flight) (site : Site κ β δ) : (f.run site).stage.left = 0 :=
  Nat.le_zero.1 (f.left_advance _ _)

/-- What a request comes to: its answer, what it left behind, and the events it caused. -/
structure Outcome (κ β δ ε : Type) where
  result : Except ε Response
  site : Site κ β δ
  events : List Event

/-- Take a request from its arrival to its answer. -/
def settle (f : Flight) (site : Site κ β δ) : Outcome κ β δ ε :=
  let p := f.run site
  ⟨p.stage.result (f.left_run site), p.site, p.events⟩

theorem settle_of_run {f : Flight} {site after : Site κ β δ} {result : Except ε Response}
    {events : List Event} (h : f.run site = ⟨after, .answered result, events⟩) :
    f.settle site = ⟨result, after, events⟩ := by
  have key : ∀ (p : Progress κ β δ ε) (hp : p.stage.left = 0),
      p = ⟨after, .answered result, events⟩ →
        (⟨p.stage.result hp, p.site, p.events⟩ : Outcome κ β δ ε) = ⟨result, after, events⟩ := by
    rintro _ _ rfl
    rfl
  exact key _ (f.left_run site) h

end Flight

end RateGate
