import RateGate.Proofs.Crowd.Budget
import RateGate.Proofs.Crowd.Instant

/-!
# Isolation of buckets

Other buckets do touch what the requests of a bucket depend on: their calls sweep the shared meter,
and move its next sweep.

**Theorem (`isolation`).** Take a schedule with a fresh meter and timely readings, and delete all
turns of requests that are not of one bucket: those of other buckets, and those whose bucket cannot
be told. The remaining requests come to the same stages, so to the same answers, and the same ones
are forwarded.

The two meters differ from the first sweep on. What agrees is the history of the bucket, and timely
rates are a function of that (`Meter.rate_reply_run_congr`). So the two crowds stay `Mirrors` of each
other, turn by turn.
-/

namespace RateGate

open Flight

/-- The rate told to a timely call depends on no events but those of its identifier. -/
theorem Meter.rate_reply_run_congr (c : Config) {calls others : List Call} {call : Call}
    (hcalls : Timely c.width.toNat (readings (calls ++ [call])))
    (hothers : Timely c.width.toNat (readings (others ++ [call])))
    (hevents : events call.id others = events call.id calls) :
    (((fresh c).run others).reply call).rate = (((fresh c).run calls).reply call).rate := by
  rw [← UInt64.toNat_inj, toNat_rate_reply_run c hcalls, toNat_rate_reply_run c hothers,
    events_append, events_append, hevents]

/-- The stage that a step leads to depends on the stage before and on what the step reads: the time,
the answer of the backend, the answer of the service. -/
theorem Flight.stage_step_congr {κ β δ ε : Type} [Timepiece κ] [Backend β] [Downstream δ ε]
    (f : Flight) {site other : Site κ β δ} {stage : Stage ε} (log otherLog : List Event)
    (htime : (Timepiece.read other.clock).1 = (Timepiece.read site.clock).1)
    (hwindow : Backend.window other.backend = Backend.window site.backend)
    (hrate : ∀ id time, stage = .timed id time →
      (Backend.reply other.backend (.count id time)).answer =
        (Backend.reply site.backend (.count id time)).answer)
    (hanswer : (Downstream.call other.inner f.request).1 =
      (Downstream.call site.inner f.request).1) :
    (f.step ⟨other, stage, otherLog⟩).stage = (f.step ⟨site, stage, log⟩).stage := by
  cases stage with
  | arrived =>
    cases hid : f.policy.extractor f.request with
    | ok id => rw [step_arrived f site log hid, step_arrived f other otherLog hid]
    | error cause =>
      rw [step_arrived_of_error f site log hid, step_arrived_of_error f other otherLog hid]
  | identified id => rw [step_identified, step_identified, htime]
  | timed id time =>
    cases hreply : (Backend.reply site.backend (.count id time)).answer with
    | ok rate =>
      rw [step_timed f site log hreply,
        step_timed f other otherLog ((hrate id time rfl).trans hreply), hwindow]
    | error cause =>
      rw [step_timed_of_error f site log hreply,
        step_timed_of_error f other otherLog ((hrate id time rfl).trans hreply), hwindow]
  | counted id time window rate =>
    by_cases hlt : f.policy.limit < rate
    · rw [step_counted_of_lt f site log id time window hlt,
        step_counted_of_lt f other otherLog id time window hlt]
    · rw [step_counted_of_le f site log id time window (UInt64.not_lt.1 hlt),
        step_counted_of_le f other otherLog id time window (UInt64.not_lt.1 hlt)]
  | cleared quota => rw [step_cleared, step_cleared, hanswer]
  | answered result => rfl

theorem Flight.Record.extractor_of_timed {ι ε : Type} {f : Flight} {i : ι} {id : Identifier}
    {time : Instant} {vs : List (Visit ι)} {n : Nat}
    (h : f.Record i (.timed id time : Stage ε) vs n) : f.policy.extractor f.request = .ok id := by
  cases h
  assumption

namespace Turn

/-- Whose turn it is, and what time its clock shows. -/
def shown {ι κ δ : Type} [Timepiece κ] (turn : Turn ι κ δ) : ι × Instant :=
  (turn.flight, (Timepiece.read turn.clock).1)

/-- The service that a turn finds behind the gate would give the answer `answers i` to request `i`
whose turn it is, whatever it has been through. -/
def AnswersAs {ι κ δ ε : Type} [Downstream δ ε] (flights : ι → Flight)
    (answers : ι → Except ε Response) (turn : Turn ι κ δ) : Prop :=
  (Downstream.call turn.inner (flights turn.flight).request).1 = answers turn.flight

end Turn

namespace Visit

variable {ι : Type}

theorem readingsOf_toBucket (id : Identifier) (vs : List (Visit ι)) :
    readingsOf id (toBucket id vs) = readingsOf id vs := by
  rw [readingsOf, toBucket, toBucket, List.filter_filter, readingsOf, toBucket]
  simp only [Bool.and_self]

end Visit

namespace Crowd

open Visit

variable {ι κ δ ε : Type} {flights : ι → Flight} {id : Identifier} {c : Meter.Config}
  {x y : Crowd ι ε}

/-- The crowd `y` consists of the requests of a bucket in `x`, as far as they can tell. -/
structure Mirrors (flights : ι → Flight) (id : Identifier) (x y : Crowd ι ε) : Prop where
  stage_eq : ∀ i, (flights i).bucket? = some id → y.stage i = x.stage i
  visits_eq : y.visits = toBucket id x.visits
  forwarded_eq : y.forwarded = x.forwarded.filter fun i => (flights i).bucket? = some id

theorem mirrors_start (flights : ι → Flight) (id : Identifier) (meter : Meter) :
    Mirrors flights id (start meter : Crowd ι ε) (start meter) :=
  ⟨fun _ _ => rfl, rfl, rfl⟩

variable [DecidableEq ι]

theorem Consistent.config_eq (h : x.Consistent flights (.fresh c)) : x.meter.config = c := by
  rw [h.meter_eq, Meter.config_run, Meter.fresh]

theorem Mirrors.rate_eq (h : Mirrors flights id x y) (hx : x.Consistent flights (.fresh c))
    (hy : y.Consistent flights (.fresh c)) {time : Instant}
    (htimely : Timely c.width.toNat (x.visits.map reading ++ [time.epochMillis.toNat])) :
    (y.meter.reply (.count id time)).rate = (x.meter.reply (.count id time)).rate := by
  have hreadings (vs : List (Visit ι)) : readings (vs.map call ++ [.count id time]) =
      vs.map reading ++ [time.epochMillis.toNat] := by
    rw [readings_append, readings_map_call]
    rfl
  rw [hx.meter_eq, hy.meter_eq, h.visits_eq]
  apply Meter.rate_reply_run_congr c
  · rw [hreadings]
    exact htimely
  · rw [hreadings]
    exact htimely.sublist ((List.filter_sublist.map _).append (List.Sublist.refl _))
  · rw [events_map_call, events_map_call]
    exact readingsOf_toBucket id x.visits

variable [Timepiece κ] [Downstream δ ε]

theorem run_append_singleton (flights : ι → Flight) (x : Crowd ι ε) (turns : List (Turn ι κ δ))
    (turn : Turn ι κ δ) :
    x.run flights (turns ++ [turn]) = (x.run flights turns).step flights turn :=
  List.foldl_append

theorem Consistent.bucket?_eq {meter : Meter} (h : x.Consistent flights meter)
    {turn : Turn ι κ δ} {v : Visit ι} (hv : x.visit? flights turn = some v) :
    (flights turn.flight).bucket? = some v.id := by
  have hmem : v ∈ (x.step flights turn).visits :=
    List.mem_append_right _ (Option.mem_toList.2 hv)
  rw [← ((move_left flights x turn).rate_eq hv).1]
  exact bucket?_eq_some_iff.2 (((h.step turn).record v.flight).extractor_eq (mem_record hmem))

/-! ## One turn -/

/-- A turn of another request does not show in the mirrored crowd. -/
theorem Mirrors.step_of_ne {meter : Meter} (h : Mirrors flights id x y)
    (hx : x.Consistent flights meter) {turn : Turn ι κ δ}
    (hturn : (flights turn.flight).bucket? ≠ some id) :
    Mirrors flights id (x.step flights turn) y := by
  refine ⟨fun i hi => ?_, ?_, ?_⟩
  · have hne : i ≠ turn.flight := by
      rintro rfl
      exact hturn hi
    rw [stage_step_of_ne _ _ hne, h.stage_eq i hi]
  · have hnone : toBucket id (x.visit? flights turn).toList = [] := by
      cases hv : x.visit? flights turn with
      | none => rfl
      | some v => exact toBucket_of_ne fun hid => hturn (hid ▸ hx.bucket?_eq hv)
    rw [step, toBucket_append, hnone, List.append_nil, h.visits_eq]
  · rw [forwarded_step, List.filter_append, h.forwarded_eq]
    split_ifs <;> simp [hturn]

/-- A request of the bucket comes to the same stage in both crowds. -/
theorem Mirrors.stage_left_eq (h : Mirrors flights id x y) (hx : x.Consistent flights (.fresh c))
    (hy : y.Consistent flights (.fresh c)) {turn other : Turn ι κ δ}
    (hturn : (flights turn.flight).bucket? = some id) (hshown : other.shown = turn.shown)
    (hanswer : (Downstream.call other.inner (flights turn.flight).request).1 =
      (Downstream.call turn.inner (flights turn.flight).request).1)
    (htimely : Timely c.width.toNat ((x.step flights turn).visits.map reading)) :
    (y.left flights other).stage = (x.left flights turn).stage := by
  obtain ⟨hflight, htime⟩ := Prod.mk.inj hshown
  rw [stage_left, stage_left, hflight, h.stage_eq _ hturn]
  refine Flight.stage_step_congr _ _ _ htime ?_ ?_ hanswer
  · show y.meter.config.window = x.meter.config.window
    rw [hx.config_eq, hy.config_eq]
  · intro id' time hstage
    have hrecord := hx.record turn.flight
    rw [hstage] at hrecord
    -- The request is about to be counted, and its bucket is this one.
    cases hturn.symm.trans (bucket?_eq_some_iff.2 hrecord.extractor_of_timed)
    have hvisit : x.visit? flights turn =
        some ⟨turn.flight, id, time, (x.meter.reply (.count id time)).rate⟩ := by
      rw [visit?, left, found, hstage]
      rfl
    rw [step, hvisit, List.map_append] at htimely
    exact congrArg Except.ok (h.rate_eq hx hy htimely)

/-- A turn of a request of the bucket, taken in both crowds. -/
theorem Mirrors.step (h : Mirrors flights id x y) (hx : x.Consistent flights (.fresh c))
    (hy : y.Consistent flights (.fresh c)) {turn other : Turn ι κ δ}
    (hturn : (flights turn.flight).bucket? = some id) (hshown : other.shown = turn.shown)
    (hanswer : (Downstream.call other.inner (flights turn.flight).request).1 =
      (Downstream.call turn.inner (flights turn.flight).request).1)
    (htimely : Timely c.width.toNat ((x.step flights turn).visits.map reading)) :
    Mirrors flights id (x.step flights turn) (y.step flights other) := by
  have hflight : other.flight = turn.flight := (Prod.mk.inj hshown).1
  have hleft := h.stage_left_eq hx hy hturn hshown hanswer htimely
  have hstage := h.stage_eq _ hturn
  refine ⟨fun i hi => ?_, ?_, ?_⟩
  · by_cases hself : i = turn.flight
    · rw [hself, stage_step_self, ← hflight, stage_step_self, hleft]
    · rw [stage_step_of_ne _ _ hself, stage_step_of_ne _ _ (hflight ▸ hself), h.stage_eq i hi]
  -- Both crowds make the same visit, if any, and it is one to the bucket.
  · have hsame : y.visit? flights other = x.visit? flights turn := by
      rw [visit?, visit?, hleft, hflight, hstage]
    have hown : toBucket id (x.visit? flights turn).toList = (x.visit? flights turn).toList := by
      cases hv : x.visit? flights turn with
      | none => rfl
      | some v =>
        cases hturn.symm.trans (hx.bucket?_eq hv)
        exact toBucket_of_eq rfl
    rw [Crowd.step, Crowd.step, toBucket_append, hown, hsame, h.visits_eq]
  · rw [forwarded_step, forwarded_step, List.filter_append, hflight, hstage, h.forwarded_eq]
    split_ifs <;> simp [hturn]

/-! ## Schedules -/

/-- Two schedules that differ by the turns of other requests, and by the states of the services,
lead to crowds that mirror each other. -/
theorem mirrors_run {answers : ι → Except ε Response} {turns rest : List (Turn ι κ δ)}
    (hturns : ∀ turn ∈ turns, turn.AnswersAs flights answers)
    (hrest : ∀ turn ∈ rest, turn.AnswersAs flights answers)
    (hshown : rest.map Turn.shown =
      (turns.filter fun turn => (flights turn.flight).bucket? = some id).map Turn.shown)
    (htimely : Timely c.width.toNat
      (((start (.fresh c) : Crowd ι ε).run flights turns).visits.map reading)) :
    Mirrors flights id ((start (.fresh c) : Crowd ι ε).run flights turns)
      ((start (.fresh c)).run flights rest) := by
  induction turns using List.reverseRecOn generalizing rest with
  | nil =>
    rw [List.map_eq_nil_iff.1 hshown]
    exact mirrors_start flights id (.fresh c)
  | append_singleton turns turn ih =>
    have hx : ((start (.fresh c) : Crowd ι ε).run flights turns).Consistent flights (.fresh c) :=
      consistent_run flights (.fresh c) turns
    rw [run_append_singleton] at htimely ⊢
    have hbefore : Timely c.width.toNat
        (((start (.fresh c) : Crowd ι ε).run flights turns).visits.map reading) :=
      htimely.sublist ((List.sublist_append_left _ _).map _)
    rw [List.forall_mem_append, List.forall_mem_singleton] at hturns
    by_cases hturn : (flights turn.flight).bucket? = some id
    -- Both schedules end with a turn of this request.
    · rw [List.filter_append, List.filter_singleton, decide_eq_true hturn, cond_true,
        List.map_append] at hshown
      obtain ⟨rest, last, rfl, hkept, hlast⟩ := List.map_eq_append_iff.1 hshown
      obtain ⟨other, rfl, hother⟩ := List.map_eq_singleton_iff.1 hlast
      rw [List.forall_mem_append, List.forall_mem_singleton] at hrest
      have hy : ((start (.fresh c) : Crowd ι ε).run flights rest).Consistent flights (.fresh c) :=
        consistent_run flights (.fresh c) rest
      have hflight : other.flight = turn.flight := (Prod.mk.inj hother).1
      have hanswer := hrest.2
      rw [Turn.AnswersAs, hflight, ← hturns.2] at hanswer
      rw [run_append_singleton]
      exact (ih hturns.1 hrest.1 hkept hbefore).step hx hy hturn hother hanswer htimely
    -- The turn is not in the other schedule.
    · rw [List.filter_append, List.filter_singleton, decide_eq_false hturn, cond_false,
        List.append_nil] at hshown
      exact (ih hturns.1 hrest hshown hbefore).step_of_ne hx hturn

/-- **Isolation of buckets.** Take any schedule of requests through gates that share one fresh meter,
with timely readings, in front of services whose answers depend on the request alone. Delete all
turns of requests whose bucket is not `id`. Each remaining request is at the same stage as before
(if it has its answer, at the same answer), and the same ones are forwarded in the same order. -/
theorem isolation (c : Meter.Config) (flights : ι → Flight) (answers : ι → Except ε Response)
    (turns rest : List (Turn ι κ δ)) (id : Identifier)
    (hturns : ∀ turn ∈ turns, turn.AnswersAs flights answers)
    (hrest : ∀ turn ∈ rest, turn.AnswersAs flights answers)
    (hshown : rest.map Turn.shown =
      (turns.filter fun turn => (flights turn.flight).bucket? = some id).map Turn.shown)
    (htimely : Timely c.width.toNat
      (((start (.fresh c) : Crowd ι ε).run flights turns).visits.map reading)) :
    (∀ i, (flights i).bucket? = some id →
      ((start (.fresh c) : Crowd ι ε).run flights rest).stage i =
        ((start (.fresh c) : Crowd ι ε).run flights turns).stage i) ∧
    ((start (.fresh c) : Crowd ι ε).run flights rest).forwarded =
      ((start (.fresh c) : Crowd ι ε).run flights turns).forwarded.filter
        fun i => (flights i).bucket? = some id := by
  have hmirrors := mirrors_run hturns hrest hshown htimely
  exact ⟨hmirrors.stage_eq, hmirrors.forwarded_eq⟩

/-- A request whose bucket cannot be told. -/
def nameless : Flight := ⟨{ Policy.standard with extractor := .failing "no key" }, ⟨.empty, ""⟩⟩

/-- Requests of bucket 7, and others among them. -/
def mixedFlights : Fin 6 → Flight :=
  ![limited 7 1, limited 7 1, limited 8 1, nameless, limited 7 1, limited 7 1]

/-- The request of bucket 8 sweeps the events of bucket 7. Later readings fall back behind it. -/
def mixedTurns : List (Turn (Fin 6) Instant Canned.Client) :=
  oneByOne ![⟨70, noNanos⟩, ⟨75, noNanos⟩, ⟨500, noNanos⟩, ⟨505, noNanos⟩, ⟨450, noNanos⟩,
    ⟨490, noNanos⟩]

/-- The turns of bucket 7, with a service that has answered other requests before. -/
def ownTurns : List (Turn (Fin 6) Instant Canned.Client) :=
  (mixedTurns.filter fun turn => (mixedFlights turn.flight).bucket? = some 7).map fun turn =>
    { turn with inner.service.calls := 9 }

def mixedCrowd : Crowd (Fin 6) String := (start (.fresh .standard)).run mixedFlights mixedTurns

def ownCrowd : Crowd (Fin 6) String := (start (.fresh .standard)).run mixedFlights ownTurns

theorem isolation_mixedTurns :
    Timely 60000 (mixedCrowd.visits.map reading) ∧
      mixedCrowd.meter.register.nextSweep = 800000 ∧ ownCrowd.meter.register.nextSweep = 750000 ∧
      mixedCrowd.forwarded = [0, 2, 4, 5] ∧ ownCrowd.forwarded = [0, 4, 5] ∧
      ownCrowd.stage 5 = mixedCrowd.stage 5 := by
  have htimely : Timely 60000 (mixedCrowd.visits.map reading) := by decide +kernel
  have hmixed : mixedCrowd.forwarded = [0, 2, 4, 5] := by decide +kernel
  have h := isolation .standard mixedFlights (fun _ => .ok ⟨.ok, .empty, ""⟩) mixedTurns ownTurns 7
    (by unfold Turn.AnswersAs; decide) (by unfold Turn.AnswersAs; decide) (by decide) htimely
  refine ⟨htimely, by decide +kernel, by decide +kernel, hmixed, ?_, h.1 5 (by decide)⟩
  rw [ownCrowd, h.2, ← mixedCrowd, hmixed]
  decide

end Crowd

end RateGate
