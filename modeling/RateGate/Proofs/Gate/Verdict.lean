import Mathlib.Logic.ExistsUnique
import Mathlib.Tactic.SplitIfs
import RateGate.Backend
import RateGate.Gate.Flight
import RateGate.Proofs.Quota

/-!
# Verdicts

What becomes of a request, for any policy, any clock, any backend and any service behind the gate.

What the parties say to a request leaves room for five verdicts, and `Given` says when each of them
is due. `Explains` says what a verdict means for the answer, for the parties, and for the log. A
party that is not asked is left as it was; since the parties are of any type, one that counts its
calls included, this says that it was not called.

**Theorem (`settle_verdict`).** Exactly one verdict is due on a request, and it explains what the
request comes to.

**Theorem (`remaining_of_verdict`).** A request that is refused is told a negative number of
remaining requests, as long as the limit is below the largest signed number, and a request that is
served never is.

A step of a request knows of one party at a time, so the run is cut at its exits: one equation for
each (`settle_of_unidentified`, `settle_of_uncounted`, `settle_of_refused`, `settle_of_passed`).
-/

namespace RateGate

variable {κ β δ ε : Type} [Timepiece κ] [Backend β] [Downstream δ ε]

/-! ## The parties -/

namespace Site

/-- The time that the clock shows. -/
def now (site : Site κ β δ) : Instant := (Timepiece.read site.clock).1

/-- What the backend says to a count of a bucket now. -/
def tell (site : Site κ β δ) (id : Identifier) : Backend.Reply β :=
  Backend.reply site.backend (.count id site.now)

/-- What the service behind the gate says to a request. -/
def serve (site : Site κ β δ) (request : Request) : Except ε Response :=
  (Downstream.call site.inner request).1

/-- After the clock was read once, and then a bucket counted once. -/
def counted (site : Site κ β δ) (id : Identifier) : Site κ β δ :=
  { site with clock := (Timepiece.read site.clock).2, backend := (site.tell id).backend }

/-- After one call of the service behind the gate. -/
def called (site : Site κ β δ) (request : Request) : Site κ β δ :=
  { site with inner := (Downstream.call site.inner request).2 }

end Site

/-! ## The answers -/

/-- The plain answer of a gate that cannot decide. Of `Retry-After` it has the values given, and
nothing but that and the type of its body. -/
structure Response.IsFailure (retryAfter : List FieldValue) (r : Response) : Prop where
  status : r.status = .internalServerError
  body : r.body = "Internal Server Error"
  contentType : r.fields.values .contentType =
    [.ofPlain "text/plain; charset=utf-8" (by decide)]
  retryAfter : r.fields.values .retryAfter = retryAfter
  other : ∀ name, name ≠ .contentType → name ≠ .retryAfter → r.fields.values name = []

/-- The response of another, with the quota written over its fields. -/
structure Response.Carries (r : Response) (q : Quota) (original : Response) : Prop where
  status : r.status = original.status
  body : r.body = original.body
  fields : q.Writes original.fields r.fields

theorem Response.carries_stamp (q : Quota) (r : Response) : (r.mapFields q.stamp).Carries q r :=
  ⟨rfl, rfl, q.writes_stamp r.fields⟩

namespace Flight

theorem isFailure_unidentified : unidentified.IsFailure [] where
  status := rfl
  body := by decide
  contentType := by rw [unidentified, Response.ofStatus, Fields.values_insert, if_pos rfl]
  retryAfter := by
    rw [unidentified, Response.ofStatus, Fields.values_insert, if_neg (by decide)]
    rfl
  other := by
    intro name hcontent _
    rw [unidentified, Response.ofStatus, Fields.values_insert, if_neg (Ne.symm hcontent)]
    rfl

theorem isFailure_uncounted (window : Span) :
    (uncounted window).IsFailure [.ofNat window.secs.toNat] := by
  have hfields (name : FieldName) : (uncounted window).fields.values name =
      if FieldName.retryAfter = name then [.ofNat window.secs.toNat]
      else unidentified.fields.values name :=
    Fields.values_insert _ _ _ name
  have hplain := isFailure_unidentified
  refine ⟨rfl, hplain.body, ?_, ?_, fun name hcontent hretry => ?_⟩
  · rw [hfields, if_neg (by decide), hplain.contentType]
  · rw [hfields, if_pos rfl]
  · rw [hfields, if_neg (Ne.symm hretry), hplain.other name hcontent hretry]

/-! ## The five verdicts -/

/-- The quota that a request is told at a rate. -/
def quota (f : Flight) (site : Site κ β δ) (rate : Word) : Quota :=
  .make f.policy.limit rate (Backend.window site.backend) site.now

/-- What can become of a request. -/
inductive Verdict (ε : Type) where
  /-- Its bucket cannot be told. -/
  | unidentified (cause : ExtractError)
  /-- It cannot be counted. -/
  | uncounted (id : Identifier) (cause : BackendError)
  /-- It is beyond the limit. -/
  | refused (id : Identifier) (rate : Word)
  /-- It may pass, and the service behind the gate has a response. -/
  | served (id : Identifier) (rate : Word) (response : Response)
  /-- It may pass, and the service behind the gate fails. -/
  | failed (id : Identifier) (rate : Word) (error : ε)

namespace Verdict

/-- The verdict on a request that may pass, by what the service behind the gate says. -/
def passed (id : Identifier) (rate : Word) : Except ε Response → Verdict ε
  | .ok response => .served id rate response
  | .error error => .failed id rate error

/-- When a verdict is due: what the extractor, the backend and the service say to the request. -/
inductive Given (f : Flight) (site : Site κ β δ) : Verdict ε → Prop
  | unidentified {cause : ExtractError} :
      f.policy.extractor f.request = .error cause → Given f site (.unidentified cause)
  | uncounted {id : Identifier} {cause : BackendError} :
      f.policy.extractor f.request = .ok id → (site.tell id).answer = .error cause →
      Given f site (.uncounted id cause)
  | refused {id : Identifier} {rate : Word} :
      f.policy.extractor f.request = .ok id → (site.tell id).answer = .ok rate →
      f.policy.limit < rate → Given f site (.refused id rate)
  | served {id : Identifier} {rate : Word} {response : Response} :
      f.policy.extractor f.request = .ok id → (site.tell id).answer = .ok rate →
      rate ≤ f.policy.limit → site.serve f.request = .ok response →
      Given f site (.served id rate response)
  | failed {id : Identifier} {rate : Word} {error : ε} :
      f.policy.extractor f.request = .ok id → (site.tell id).answer = .ok rate →
      rate ≤ f.policy.limit → site.serve f.request = .error error →
      Given f site (.failed id rate error)

/-- What a verdict means: who was asked, what is logged, and what the answer is. -/
def Explains (f : Flight) (site : Site κ β δ) (o : Outcome κ β δ ε) : Verdict ε → Prop
  | .unidentified cause =>
    o.site = site ∧ o.events = [.extractionFailed cause] ∧
      ∃ r, o.result = .ok r ∧ r.IsFailure []
  | .uncounted id cause =>
    o.site = site.counted id ∧ o.events = (site.tell id).events ++ [.countingFailed id cause] ∧
      ∃ r, o.result = .ok r ∧ r.IsFailure [.ofNat (Backend.window site.backend).secs.toNat]
  | .refused id rate =>
    o.site = site.counted id ∧
      o.events = (site.tell id).events ++ [.limitExceeded id rate f.policy.limit] ∧
      ∃ r, o.result = .ok r ∧ r.Carries (f.quota site rate) (f.policy.exceeded f.request)
  | .served id rate response =>
    o.site = (site.counted id).called f.request ∧
      o.events = (site.tell id).events ++ [.forwarding id rate f.policy.limit] ∧
      ∃ r, o.result = .ok r ∧ r.Carries (f.quota site rate) response
  | .failed id rate error =>
    o.site = (site.counted id).called f.request ∧
      o.events = (site.tell id).events ++ [.forwarding id rate f.policy.limit] ∧
      o.result = .error error

end Verdict

/-! ## The exits of a run -/

section Exits

variable {f : Flight} {site : Site κ β δ} {id : Identifier} {rate : Word}

theorem run_of_identified (h : f.policy.extractor f.request = .ok id) :
    f.run site =
      f.advance 3 ⟨{ site with clock := (Timepiece.read site.clock).2 }, .timed id site.now, []⟩ := by
  show f.advance 5 ⟨site, .arrived, []⟩ = _
  rw [advance, step_arrived f site [] h, advance, step_identified]
  rfl

theorem run_of_counted (h : f.policy.extractor f.request = .ok id)
    (hrate : (site.tell id).answer = .ok rate) :
    f.run site =
      f.advance 2 ⟨site.counted id, .counted id site.now (Backend.window site.backend) rate,
        (site.tell id).events⟩ := by
  rw [run_of_identified h, advance,
    step_timed f { site with clock := (Timepiece.read site.clock).2 } [] hrate]
  rfl

theorem settle_of_unidentified {cause : ExtractError}
    (h : f.policy.extractor f.request = .error cause) :
    f.settle site = ⟨.ok unidentified, site, [.extractionFailed cause]⟩ := by
  apply settle_of_run
  show f.advance 5 ⟨site, .arrived, []⟩ = _
  rw [advance, step_arrived_of_error f site [] h, advance_answered]
  rfl

theorem settle_of_uncounted {cause : BackendError} (h : f.policy.extractor f.request = .ok id)
    (hcause : (site.tell id).answer = .error cause) :
    f.settle site =
      ⟨.ok (uncounted (Backend.window site.backend)), site.counted id,
        (site.tell id).events ++ [.countingFailed id cause]⟩ := by
  apply settle_of_run
  rw [run_of_identified h, advance,
    step_timed_of_error f { site with clock := (Timepiece.read site.clock).2 } [] hcause,
    advance_answered]
  rfl

theorem settle_of_refused (h : f.policy.extractor f.request = .ok id)
    (hrate : (site.tell id).answer = .ok rate) (hlt : f.policy.limit < rate) :
    f.settle site =
      ⟨.ok ((f.policy.exceeded f.request).mapFields (f.quota site rate).stamp),
        site.counted id, (site.tell id).events ++ [.limitExceeded id rate f.policy.limit]⟩ := by
  apply settle_of_run
  rw [run_of_counted h hrate, advance, step_counted_of_lt _ _ _ _ _ _ hlt, advance_answered]
  rfl

theorem settle_of_passed (h : f.policy.extractor f.request = .ok id)
    (hrate : (site.tell id).answer = .ok rate) (hle : rate ≤ f.policy.limit) :
    f.settle site =
      ⟨(site.serve f.request).map fun response =>
          response.mapFields (f.quota site rate).stamp,
        (site.counted id).called f.request,
        (site.tell id).events ++ [.forwarding id rate f.policy.limit]⟩ := by
  apply settle_of_run
  rw [run_of_counted h hrate, advance, step_counted_of_le _ _ _ _ _ _ hle, advance, step_cleared]
  rfl

end Exits

namespace Verdict

variable (f : Flight) (site : Site κ β δ)

/-- The verdict that is due. -/
def due : Verdict ε :=
  match f.policy.extractor f.request with
  | .error cause => .unidentified cause
  | .ok id =>
    match (site.tell id).answer with
    | .error cause => .uncounted id cause
    | .ok rate =>
      if f.policy.limit < rate then .refused id rate
      else .passed id rate (site.serve f.request)

variable {f site} {v : Verdict ε}

theorem given_passed {id : Identifier} {rate : Word} (hid : f.policy.extractor f.request = .ok id)
    (hrate : (site.tell id).answer = .ok rate) (hle : rate ≤ f.policy.limit) :
    (passed id rate (site.serve f.request)).Given f site := by
  cases hserve : site.serve f.request with
  | ok response => exact .served hid hrate hle hserve
  | error error => exact .failed hid hrate hle hserve

theorem given_due : (due f site).Given f site := by
  cases hid : f.policy.extractor f.request with
  | error cause =>
    simp only [due, hid]
    exact .unidentified hid
  | ok id =>
    cases hanswer : (site.tell id).answer with
    | error cause =>
      simp only [due, hid, hanswer]
      exact .uncounted hid hanswer
    | ok rate =>
      simp only [due, hid, hanswer]
      split_ifs with hlt
      · exact .refused hid hanswer hlt
      · exact given_passed hid hanswer (UInt64.not_lt.1 hlt)

/-- The parties leave no choice. -/
theorem Given.eq_due (h : v.Given f site) : v = due f site := by
  cases h with
  | unidentified hid => simp only [due, hid]
  | uncounted hid hcause => simp only [due, hid, hcause]
  | refused hid hrate hlt => simp only [due, hid, hrate, if_pos hlt]
  | served hid hrate hle hserve | failed hid hrate hle hserve =>
    simp only [due, hid, hrate, if_neg (UInt64.not_lt.2 hle), hserve, passed]

/-- What the request comes to is what its verdict says. -/
theorem Given.explains (h : v.Given f site) : v.Explains f site (f.settle site) := by
  cases h with
  | unidentified hid =>
    rw [settle_of_unidentified hid]
    exact ⟨rfl, rfl, _, rfl, isFailure_unidentified⟩
  | uncounted hid hcause =>
    rw [settle_of_uncounted hid hcause]
    exact ⟨rfl, rfl, _, rfl, isFailure_uncounted _⟩
  | refused hid hrate hlt =>
    rw [settle_of_refused hid hrate hlt]
    exact ⟨rfl, rfl, _, rfl, Response.carries_stamp _ _⟩
  | served hid hrate hle hserve =>
    rw [settle_of_passed hid hrate hle, hserve]
    exact ⟨rfl, rfl, _, rfl, Response.carries_stamp _ _⟩
  | failed hid hrate hle hserve =>
    rw [settle_of_passed hid hrate hle, hserve]
    exact ⟨rfl, rfl, rfl⟩

end Verdict

/-- **One verdict on each request.** Whatever the policy, the clock, the backend and the service
behind the gate: exactly one of the five verdicts is due on a request, and what the request comes to
is what that verdict says. -/
theorem settle_verdict (f : Flight) (site : Site κ β δ) :
    (∃! v : Verdict ε, v.Given f site) ∧
      ∀ v : Verdict ε, v.Given f site → v.Explains f site (f.settle site) :=
  ⟨⟨_, Verdict.given_due, fun _ hv => hv.eq_due⟩, fun _ hv => hv.explains⟩

/-- A request that is not told apart from others, at a gate with a limit. -/
def plainRequest (limit : Word) : Flight := ⟨Policy.standard.withLimit limit, ⟨.empty, ""⟩⟩

/-- A site at the epoch whose backend always gives this answer, and whose service repeats the body
of a request. -/
def answering (answer : Except BackendError Word) : Site Instant Scripted Canned.Client :=
  ⟨.epoch, ⟨.ofSecs 60, answer, []⟩, ⟨⟨⟨.ok, .empty, none⟩, none, .ready, 0⟩, true, false⟩⟩

theorem settle_verdict_uncounted :
    (Verdict.uncounted 0 (.unavailable "down") : Verdict String).Given (plainRequest 5)
        (answering (.error (.unavailable "down"))) ∧
      ((plainRequest 5).settle (answering (.error (.unavailable "down")))).events =
        [.countingFailed 0 (.unavailable "down")] := by
  have hgiven : (Verdict.uncounted 0 (.unavailable "down") : Verdict String).Given (plainRequest 5)
      (answering (.error (.unavailable "down"))) := .uncounted rfl rfl
  exact ⟨hgiven, ((settle_verdict _ _).2 _ hgiven).2.1⟩

/-! ## The sign of what remains -/

/-- **The sign of what remains.** For limits below the largest signed number, what remains is
negative exactly where the rate exceeds the limit. So is what a refused request is told; a request
that is served is never told a negative number, whatever its limit. -/
theorem remaining_of_verdict (f : Flight) (site : Site κ β δ) :
    (∀ limit rate window time, (Quota.make limit rate window time).remaining < 0 ↔
      limit < rate ∧ limit.toNat < 9223372036854775807) ∧
    (∀ id rate, (Verdict.refused id rate : Verdict ε).Given f site →
      ∃ r n, (f.settle site).result = .ok r ∧ r.fields.values .rateRemaining = [.ofInt n] ∧
        (n < 0 ↔ f.policy.limit.toNat < 9223372036854775807)) ∧
    ∀ id rate response, (Verdict.served id rate response : Verdict ε).Given f site →
      ∃ r n, (f.settle site).result = .ok r ∧ r.fields.values .rateRemaining = [.ofInt n] ∧
        0 ≤ n := by
  refine ⟨Quota.remaining_make_neg_iff, fun id rate h => ?_, fun id rate response h => ?_⟩
  · obtain ⟨-, -, r, hresult, hcarries⟩ := h.explains
    refine ⟨r, _, hresult, hcarries.fields.remaining, ?_⟩
    cases h with
    | refused _ _ hlt => rw [quota, Quota.remaining_make_neg_iff, and_iff_right hlt]
  · obtain ⟨-, -, r, hresult, hcarries⟩ := h.explains
    refine ⟨r, _, hresult, hcarries.fields.remaining, ?_⟩
    cases h with
    | served _ _ hle _ =>
      rw [quota, ← Int.not_lt, Quota.remaining_make_neg_iff]
      exact fun hneg => UInt64.not_lt.2 hle hneg.1

theorem remaining_of_verdict_atLimit :
    (Verdict.refused 0 6 : Verdict String).Given (plainRequest 5) (answering (.ok 6)) ∧
      (∃ r n, ((plainRequest 5).settle (answering (.ok 6))).result = .ok r ∧
        r.fields.values .rateRemaining = [.ofInt n] ∧ n < 0) ∧
      (Verdict.served 0 5 ⟨.ok, .empty, ""⟩ : Verdict String).Given (plainRequest 5)
        (answering (.ok 5)) ∧
      ∃ r n, ((plainRequest 5).settle (answering (.ok 5))).result = .ok r ∧
        r.fields.values .rateRemaining = [.ofInt n] ∧ 0 ≤ n := by
  have hrefused : (Verdict.refused 0 6 : Verdict String).Given (plainRequest 5)
      (answering (.ok 6)) := .refused rfl rfl (by decide)
  have hserved : (Verdict.served 0 5 ⟨.ok, .empty, ""⟩ : Verdict String).Given (plainRequest 5)
      (answering (.ok 5)) := .served rfl rfl (by decide) rfl
  obtain ⟨r, n, hresult, hvalues, hneg⟩ := (remaining_of_verdict _ _).2.1 0 6 hrefused
  exact ⟨hrefused, ⟨r, n, hresult, hvalues, hneg.2 (by decide)⟩, hserved,
    (remaining_of_verdict _ _).2.2 0 5 _ hserved⟩

/-- At the largest signed number as a limit, a rate above it is refused, and yet nothing negative is
told: both numbers count as the end of the signed range, and what remains is zero. -/
theorem remaining_eq_zero_of_refused :
    (Verdict.refused 0 9223372036854775808 : Verdict String).Given
        (plainRequest 9223372036854775807) (answering (.ok 9223372036854775808)) ∧
      ¬((Quota.make 9223372036854775807 9223372036854775808 (.ofSecs 60) .epoch).remaining < 0 ↔
        (9223372036854775807 : Word) < 9223372036854775808) ∧
      ∃ r, ((plainRequest 9223372036854775807).settle
          (answering (.ok 9223372036854775808))).result = .ok r ∧
        r.status = .tooManyRequests ∧ r.fields.values .rateRemaining = [.ofInt 0] := by
  have hgiven : (Verdict.refused 0 9223372036854775808 : Verdict String).Given
      (plainRequest 9223372036854775807) (answering (.ok 9223372036854775808)) :=
    .refused rfl rfl (by decide)
  obtain ⟨-, -, r, hresult, hcarries⟩ := hgiven.explains
  exact ⟨hgiven, by decide, r, hresult, hcarries.status, hcarries.fields.remaining⟩

end Flight

end RateGate
