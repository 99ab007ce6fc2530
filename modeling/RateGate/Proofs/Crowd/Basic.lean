import Mathlib.Data.Fin.VecNotation
import Mathlib.Data.Fintype.Card
import RateGate.Gate.Flight
import RateGate.Proofs.Meter.History

/-!
# Crowds of requests

Any number of requests under way at once, through any gates, all counted in one meter.

**Turns.** A schedule is a list of turns. A turn lets one request make its next step, as
`Flight.step` has it. Which clock it finds and which service stands behind its gate is part of the
turn, so both may have been changed in between by anyone. Only the meter is carried from turn to
turn. A request that is given five turns comes to its answer, whoever else has turns in between
(`left_stage_run`).

**Calls of the services.** The line to the service of a turn is tapped, and a request is forwarded
whenever its service hears it. A request does not notice the tap (`stage_left`).

**Moves.** `Move` says all that a step can do to a stage and to the meter. What is claimed of every
step is a case analysis of it, and `move_step` is the only proof that opens `Flight.step`.

**Records.** The crowd keeps the counts in the order in which the meter made them (`visits`), and
the requests in the order in which they were forwarded. `Record` says what these hold of a request
at each of its stages: it is counted once at most, and forwarded once at most, and only if the rate
it was told is within its limit. `consistent_run` is the invariant of every schedule.
-/

namespace RateGate

open Flight

/-- One count of a request: its bucket, its time, and the rate it was told. -/
structure Visit (ι : Type) where
  flight : ι
  id : Identifier
  time : Instant
  rate : Word

namespace Visit

variable {ι ε : Type}

/-- The call that the meter answered. -/
def call (v : Visit ι) : Call := .count v.id v.time

/-- The time in milliseconds. -/
def reading (v : Visit ι) : Nat := v.time.epochMillis.toNat

/-- The count that a request made between two stages. -/
def between? (flight : ι) : Stage ε → Stage ε → Option (Visit ι)
  | .timed _ _, .counted id time _ rate => some ⟨flight, id, time, rate⟩
  | _, _ => none

/-- The visits to a bucket. -/
def toBucket (id : Identifier) (vs : List (Visit ι)) : List (Visit ι) :=
  vs.filter fun v => v.id = id

end Visit

/-- Whose turn it is, and what the request finds besides the meter. -/
structure Turn (ι κ δ : Type) where
  flight : ι
  clock : κ
  inner : δ

/-- Requests under way, the meter they share, and what has become of them so far. -/
structure Crowd (ι ε : Type) where
  meter : Meter
  stage : ι → Stage ε
  visits : List (Visit ι)
  /-- Whose requests the services behind the gates have heard, in order. -/
  forwarded : List ι

namespace Crowd

variable {ι κ δ ε : Type} [DecidableEq ι] [Timepiece κ] [Downstream δ ε]

/-- No request has begun. -/
def start (meter : Meter) : Crowd ι ε := ⟨meter, fun _ => .arrived, [], []⟩

/-- The request of a turn as the turn finds it, with somebody listening in on the service. -/
def found (x : Crowd ι ε) (turn : Turn ι κ δ) : Progress κ Meter (Tapped δ) ε :=
  ⟨⟨turn.clock, x.meter, ⟨turn.inner, []⟩⟩, x.stage turn.flight, []⟩

/-- The request of a turn as the turn leaves it. -/
def left (flights : ι → Flight) (x : Crowd ι ε) (turn : Turn ι κ δ) :
    Progress κ Meter (Tapped δ) ε :=
  (flights turn.flight).step (x.found turn)

/-- The count made in a turn, if it makes one. -/
def visit? (flights : ι → Flight) (x : Crowd ι ε) (turn : Turn ι κ δ) : Option (Visit ι) :=
  Visit.between? turn.flight (x.stage turn.flight) (x.left flights turn).stage

/-- One turn. -/
def step (flights : ι → Flight) (x : Crowd ι ε) (turn : Turn ι κ δ) : Crowd ι ε where
  meter := (x.left flights turn).site.backend
  stage := Function.update x.stage turn.flight (x.left flights turn).stage
  visits := x.visits ++ (x.visit? flights turn).toList
  forwarded := x.forwarded ++ (x.left flights turn).site.inner.heard.map fun _ => turn.flight

/-- Turns one after another. -/
def run (flights : ι → Flight) (x : Crowd ι ε) (turns : List (Turn ι κ δ)) : Crowd ι ε :=
  turns.foldl (step flights) x

/-- The forwarded requests whose count satisfies a condition. -/
def forwardedOf (x : Crowd ι ε) (p : Visit ι → Bool) : List ι :=
  x.forwarded.filter fun i => x.visits.any fun v => decide (v.flight = i) && p v

end Crowd

/-! ## One request -/

/-- How a request comes from one stage to the next at a clock that reads `now`, and what it makes of
the meter. -/
inductive Flight.Move {ε : Type} (f : Flight) (now : Instant) (m : Meter) :
    Stage ε → Stage ε → Meter → Prop
  | identify {id : Identifier} :
      f.policy.extractor f.request = .ok id → Move f now m .arrived (.identified id) m
  | giveUp {cause : ExtractError} :
      f.policy.extractor f.request = .error cause →
      Move f now m .arrived (.answered (.ok unidentified)) m
  | note {id : Identifier} : Move f now m (.identified id) (.timed id now) m
  | count {id : Identifier} {time : Instant} :
      Move f now m (.timed id time)
        (.counted id time m.config.window (m.reply (.count id time)).rate)
        (m.reply (.count id time)).meter
  | refuse {id : Identifier} {time : Instant} {window : Span} {rate : Word} :
      f.policy.limit < rate →
      Move f now m (.counted id time window rate)
        (.answered (.ok ((f.policy.exceeded f.request).mapFields
          (Quota.make f.policy.limit rate window time).stamp))) m
  | pass {id : Identifier} {time : Instant} {window : Span} {rate : Word} :
      rate ≤ f.policy.limit →
      Move f now m (.counted id time window rate)
        (.cleared (Quota.make f.policy.limit rate window time)) m
  | forward {quota : Quota} {answer : Except ε Response} :
      Move f now m (.cleared quota)
        (.answered (answer.map fun response => response.mapFields quota.stamp)) m
  | rest {result : Except ε Response} : Move f now m (.answered result) (.answered result) m

theorem Flight.move_step {κ δ ε : Type} [Timepiece κ] [Downstream δ ε] (f : Flight)
    (p : Progress κ Meter δ ε) :
    f.Move (Timepiece.read p.site.clock).1 p.site.backend p.stage (f.step p).stage
      (f.step p).site.backend := by
  obtain ⟨site, stage, log⟩ := p
  cases stage with
  | arrived =>
    cases hid : f.policy.extractor f.request with
    | ok id =>
      rw [step_arrived f site log hid]
      exact .identify hid
    | error cause =>
      rw [step_arrived_of_error f site log hid]
      exact .giveUp hid
  | identified id => exact .note
  | timed id time => exact .count
  | counted id time window rate =>
    by_cases hlt : f.policy.limit < rate
    · rw [step_counted_of_lt f site log id time window hlt]
      exact .refuse hlt
    · rw [step_counted_of_le f site log id time window (UInt64.not_lt.1 hlt)]
      exact .pass (UInt64.not_lt.1 hlt)
  | cleared quota => exact .forward
  | answered result => exact .rest

/-- What may be on record of a request that has come to a stage: its counts, and how often it was
forwarded. -/
inductive Flight.Record {ι ε : Type} (f : Flight) (i : ι) : Stage ε → List (Visit ι) → Nat → Prop
  | arrived : Record f i .arrived [] 0
  | unidentified {cause : ExtractError} {result : Except ε Response} :
      f.policy.extractor f.request = .error cause → Record f i (.answered result) [] 0
  | identified {id : Identifier} :
      f.policy.extractor f.request = .ok id → Record f i (.identified id) [] 0
  | timed {id : Identifier} {time : Instant} :
      f.policy.extractor f.request = .ok id → Record f i (.timed id time) [] 0
  | counted {id : Identifier} {time : Instant} {window : Span} {rate : Word} :
      f.policy.extractor f.request = .ok id →
      Record f i (.counted id time window rate) [⟨i, id, time, rate⟩] 0
  | refused {id : Identifier} {time : Instant} {rate : Word} {result : Except ε Response} :
      f.policy.extractor f.request = .ok id → f.policy.limit < rate →
      Record f i (.answered result) [⟨i, id, time, rate⟩] 0
  | cleared {id : Identifier} {time : Instant} {rate : Word} {quota : Quota} :
      f.policy.extractor f.request = .ok id → rate ≤ f.policy.limit →
      Record f i (.cleared quota) [⟨i, id, time, rate⟩] 0
  | forwarded {id : Identifier} {time : Instant} {rate : Word} {result : Except ε Response} :
      f.policy.extractor f.request = .ok id → rate ≤ f.policy.limit →
      Record f i (.answered result) [⟨i, id, time, rate⟩] 1

namespace Flight.Move

variable {ι ε : Type} {f : Flight} {now : Instant} {m m' : Meter} {s s' : Stage ε} {i : ι}

theorem meter_eq (h : f.Move now m s s' m') (i : ι) :
    m' = m.run ((Visit.between? i s s').toList.map Visit.call) := by
  cases h <;> rfl

theorem rate_eq {v : Visit ι} (h : f.Move now m s s' m') (hv : Visit.between? i s s' = some v) :
    v.flight = i ∧ v.rate = (m.reply v.call).rate := by
  cases h with
  | count =>
    cases hv
    exact ⟨rfl, rfl⟩
  | _ => cases hv

/-- A move keeps what is on record of a request. -/
theorem record {vs : List (Visit ι)} {n : Nat} (h : f.Move now m s s' m')
    (hrecord : f.Record i s vs n) :
    f.Record i s' (vs ++ (Visit.between? i s s').toList) (n + if s.forwards then 1 else 0) := by
  cases h with
  | identify hid =>
    cases hrecord
    exact .identified hid
  | giveUp herr =>
    cases hrecord
    exact .unidentified herr
  | note =>
    cases hrecord with
    | identified hid => exact .timed hid
  | count =>
    cases hrecord with
    | timed hid => exact .counted hid
  | refuse hlt =>
    cases hrecord with
    | counted hid => exact .refused hid hlt
  | pass hle =>
    cases hrecord with
    | counted hid => exact .cleared hid hle
  | forward =>
    cases hrecord with
    | cleared hid hle => exact .forwarded hid hle
  | rest =>
    cases hrecord with
    | unidentified herr => exact .unidentified herr
    | refused hid hlt => exact .refused hid hlt
    | forwarded hid hle => exact .forwarded hid hle

end Flight.Move

namespace Flight.Record

variable {ι ε : Type} {f : Flight} {i : ι} {s : Stage ε} {vs : List (Visit ι)} {n : Nat}

theorem length_le_one (h : f.Record i s vs n) : vs.length ≤ 1 := by
  cases h <;> simp

theorem le_one (h : f.Record i s vs n) : n ≤ 1 := by
  cases h <;> simp

theorem exists_visit (h : f.Record i s vs n) (hn : n ≠ 0) :
    ∃ v ∈ vs, v.rate ≤ f.policy.limit := by
  cases h with
  | forwarded hid hle => exact ⟨_, List.mem_singleton_self _, hle⟩
  | _ => exact absurd rfl hn

theorem extractor_eq {v : Visit ι} (h : f.Record i s vs n) (hv : v ∈ vs) :
    f.policy.extractor f.request = .ok v.id := by
  cases h <;> first
    | exact absurd hv List.not_mem_nil
    | (rw [List.mem_singleton.1 hv]; assumption)

/-- A request that has its answer was forwarded if and only if its rate was within its limit. -/
theorem eq_ite {result : Except ε Response} {v : Visit ι}
    (h : f.Record i (.answered result) vs n) (hv : v ∈ vs) :
    n = if v.rate ≤ f.policy.limit then 1 else 0 := by
  cases h with
  | unidentified hid => exact absurd hv List.not_mem_nil
  | refused hid hlt => rw [List.mem_singleton.1 hv, if_neg (UInt64.not_le.2 hlt)]
  | forwarded hid hle => rw [List.mem_singleton.1 hv, if_pos hle]

theorem exists_visit_of_answered {result : Except ε Response} {id : Identifier}
    (h : f.Record i (.answered result) vs n) (hid : f.policy.extractor f.request = .ok id) :
    ∃ v ∈ vs, v.id = id := by
  cases h with
  | unidentified herr =>
    rw [hid] at herr
    cases herr
  | refused hid' _ | forwarded hid' _ =>
    rw [hid] at hid'
    cases hid'
    exact ⟨_, List.mem_singleton_self _, rfl⟩

end Flight.Record

/-! ## All requests -/

namespace Crowd

theorem move_left {ι κ δ ε : Type} [Timepiece κ] [Downstream δ ε] (flights : ι → Flight)
    (x : Crowd ι ε) (turn : Turn ι κ δ) :
    (flights turn.flight).Move (Timepiece.read turn.clock).1 x.meter (x.stage turn.flight)
      (x.left flights turn).stage (x.left flights turn).site.backend :=
  (flights turn.flight).move_step (x.found turn)

/-- What a turn makes of its request is a step in front of the service itself. -/
theorem stage_left {ι κ δ ε : Type} [Timepiece κ] [Downstream δ ε] (flights : ι → Flight)
    (x : Crowd ι ε) (turn : Turn ι κ δ) :
    (x.left flights turn).stage = ((flights turn.flight).step
      (⟨⟨turn.clock, x.meter, turn.inner⟩, x.stage turn.flight, []⟩ : Progress κ Meter δ ε)).stage :=
  congrArg Progress.stage ((flights turn.flight).untap_step (x.found turn))

variable {ι κ δ ε : Type} [DecidableEq ι]

/-- What is on record of a crowd that began with `meter` hangs together. -/
structure Consistent (flights : ι → Flight) (meter : Meter) (x : Crowd ι ε) : Prop where
  meter_eq : x.meter = meter.run (x.visits.map Visit.call)
  rates_eq : x.visits.map Visit.rate =
    (meter.replies (x.visits.map Visit.call)).map Meter.Reply.rate
  record : ∀ i, (flights i).Record i (x.stage i) (x.visits.filter fun v => v.flight = i)
    (x.forwarded.count i)

theorem consistent_start (flights : ι → Flight) (meter : Meter) :
    (start meter : Crowd ι ε).Consistent flights meter :=
  ⟨rfl, rfl, fun _ => .arrived⟩

variable [Timepiece κ] [Downstream δ ε] {flights : ι → Flight} {meter : Meter} {x : Crowd ι ε}

theorem stage_step_self (flights : ι → Flight) (x : Crowd ι ε) (turn : Turn ι κ δ) :
    (x.step flights turn).stage turn.flight = (x.left flights turn).stage :=
  Function.update_self ..

theorem stage_step_of_ne (flights : ι → Flight) (x : Crowd ι ε) {turn : Turn ι κ δ} {i : ι}
    (hi : i ≠ turn.flight) : (x.step flights turn).stage i = x.stage i :=
  Function.update_of_ne hi ..

theorem visits_step (flights : ι → Flight) (x : Crowd ι ε) (turn : Turn ι κ δ) (i : ι) :
    ((x.step flights turn).visits.filter fun v => v.flight = i) =
      (x.visits.filter fun v => v.flight = i) ++
        if turn.flight = i then (x.visit? flights turn).toList else [] := by
  rw [step, List.filter_append]
  congr 1
  cases hv : x.visit? flights turn with
  | none => simp
  | some v => simp [List.filter_cons, ((move_left flights x turn).rate_eq hv).1]

theorem forwarded_step (flights : ι → Flight) (x : Crowd ι ε) (turn : Turn ι κ δ) :
    (x.step flights turn).forwarded =
      x.forwarded ++ if (x.stage turn.flight).forwards then [turn.flight] else [] := by
  rw [step, left, heard_step, found, List.nil_append]
  split_ifs <;> rfl

theorem count_forwarded_step (flights : ι → Flight) (x : Crowd ι ε) (turn : Turn ι κ δ) (i : ι) :
    (x.step flights turn).forwarded.count i =
      x.forwarded.count i +
        if turn.flight = i then if (x.stage turn.flight).forwards then 1 else 0 else 0 := by
  rw [forwarded_step, List.count_append]
  by_cases hi : turn.flight = i <;> cases (x.stage turn.flight).forwards <;> simp [hi]

theorem Consistent.step (h : x.Consistent flights meter) (turn : Turn ι κ δ) :
    (x.step flights turn).Consistent flights meter := by
  refine ⟨?_, ?_, fun i => ?_⟩
  · rw [Crowd.step, List.map_append, Meter.run_append, ← h.meter_eq]
    exact (move_left flights x turn).meter_eq turn.flight
  · rw [Crowd.step, List.map_append, List.map_append, Meter.replies_append, List.map_append,
      h.rates_eq, ← h.meter_eq]
    cases hv : x.visit? flights turn with
    | none => rfl
    | some v =>
      simp [Meter.replies, ((move_left flights x turn).rate_eq hv).2]
  · rw [visits_step, count_forwarded_step]
    by_cases hi : turn.flight = i
    · subst hi
      rw [if_pos rfl, if_pos rfl, stage_step_self]
      exact (move_left flights x turn).record (h.record turn.flight)
    · rw [if_neg hi, if_neg hi, List.append_nil, stage_step_of_ne _ _ (Ne.symm hi)]
      exact h.record i

theorem Consistent.run (h : x.Consistent flights meter) (turns : List (Turn ι κ δ)) :
    (x.run flights turns).Consistent flights meter := by
  induction turns generalizing x with
  | nil => exact h
  | cons turn turns ih => exact ih (h.step turn)

theorem consistent_run (flights : ι → Flight) (meter : Meter) (turns : List (Turn ι κ δ)) :
    ((start meter : Crowd ι ε).run flights turns).Consistent flights meter :=
  (consistent_start flights meter).run turns

/-! ## Who has an answer -/

theorem left_stage_step (flights : ι → Flight) (x : Crowd ι ε) (turn : Turn ι κ δ) (i : ι) :
    ((x.step flights turn).stage i).left ≤
      (x.stage i).left - if turn.flight = i then 1 else 0 := by
  by_cases hi : turn.flight = i
  · rw [if_pos hi, ← hi, stage_step_self]
    exact (flights turn.flight).left_step (x.found turn)
  · rw [if_neg hi, stage_step_of_ne _ _ (Ne.symm hi), Nat.sub_zero]

/-- Every turn of a request brings it a step closer to its answer, and no turn of another takes it
back. -/
theorem left_stage_run (flights : ι → Flight) (x : Crowd ι ε) (turns : List (Turn ι κ δ)) (i : ι) :
    ((x.run flights turns).stage i).left ≤
      (x.stage i).left - turns.countP fun turn => turn.flight = i := by
  induction turns generalizing x with
  | nil => exact Nat.le_refl _
  | cons turn turns ih =>
    have hstep := left_stage_step flights x turn i
    have hrest := ih (x.step flights turn)
    rw [List.countP_cons]
    simp only [decide_eq_true_eq]
    exact hrest.trans (by omega)

/-- Five turns are enough for a request, wherever they stand in the schedule. -/
theorem left_stage_run_start (flights : ι → Flight) (meter : Meter) {turns : List (Turn ι κ δ)}
    {i : ι} (h : 5 ≤ turns.countP fun turn => turn.flight = i) :
    (((start meter : Crowd ι ε).run flights turns).stage i).left = 0 := by
  have hleft := left_stage_run flights (start meter : Crowd ι ε) turns i
  exact Nat.le_zero.1 (hleft.trans (Nat.sub_le_of_le_add (Nat.le_trans h (Nat.le_add_left ..))))

/-! ## What the records say -/

namespace Consistent

variable {flights : ι → Flight} {meter : Meter} {x : Crowd ι ε}

/-- A visit was answered by the meter that the visits before it left. -/
theorem rate_eq (h : x.Consistent flights meter) {before after : List (Visit ι)} {v : Visit ι}
    (hv : x.visits = before ++ v :: after) :
    v.rate = ((meter.run (before.map Visit.call)).reply v.call).rate := by
  have hat := congrArg (·[before.length]?) h.rates_eq
  simp only [List.getElem?_map] at hat
  rw [hv, List.map_append, List.map_cons, ← List.length_map Visit.call,
    Meter.getElem?_replies, List.length_map, List.getElem?_append_right (Nat.le_refl _),
    Nat.sub_self] at hat
  exact Option.some.inj hat

theorem nodup_visits (h : x.Consistent flights meter) : (x.visits.map Visit.flight).Nodup := by
  apply List.nodup_iff_count_le_one.2
  intro i
  have hone := (h.record i).length_le_one
  rw [← List.countP_eq_length_filter] at hone
  rw [List.count, List.countP_map]
  exact hone

theorem nodup_forwarded (h : x.Consistent flights meter) : x.forwarded.Nodup :=
  List.nodup_iff_count_le_one.2 fun i => (h.record i).le_one

theorem length_visits_le [Fintype ι] (h : x.Consistent flights meter) :
    x.visits.length ≤ Fintype.card ι := by
  rw [← List.length_map Visit.flight]
  exact h.nodup_visits.length_le_card

theorem mem_record {v : Visit ι} (hv : v ∈ x.visits) :
    v ∈ x.visits.filter fun u => u.flight = v.flight :=
  List.mem_filter.2 ⟨hv, decide_eq_true rfl⟩

theorem exists_visit (h : x.Consistent flights meter) {i : ι} (hi : i ∈ x.forwarded) :
    ∃ v ∈ x.visits, v.flight = i ∧ v.rate ≤ (flights i).policy.limit := by
  obtain ⟨v, hv, hle⟩ := (h.record i).exists_visit (List.count_pos_iff.2 hi).ne'
  obtain ⟨hv, hflight⟩ := List.mem_filter.1 hv
  exact ⟨v, hv, of_decide_eq_true hflight, hle⟩

theorem visit_unique (h : x.Consistent flights meter) {u v : Visit ι} (hu : u ∈ x.visits)
    (hv : v ∈ x.visits) (huv : u.flight = v.flight) : u = v :=
  List.inj_on_of_nodup_map h.nodup_visits hu hv huv

/-- Of the requests whose visit satisfies a condition, no more are forwarded than are told a rate
within their limit. -/
theorem length_forwardedOf_le (h : x.Consistent flights meter) (p : Visit ι → Bool) :
    (x.forwardedOf p).length ≤
      x.visits.countP fun v => decide (v.rate ≤ (flights v.flight).policy.limit) && p v := by
  rw [List.countP_eq_length_filter, ← List.length_map Visit.flight]
  refine ((h.nodup_forwarded.filter _).subperm fun i hi => ?_).length_le
  obtain ⟨hi, hp⟩ := List.mem_filter.1 hi
  obtain ⟨u, hu, hpu⟩ := List.any_eq_true.1 hp
  rw [Bool.and_eq_true, decide_eq_true_eq] at hpu
  obtain ⟨v, hv, hvi, hle⟩ := h.exists_visit hi
  obtain rfl := h.visit_unique hu hv (hpu.1.trans hvi.symm)
  refine List.mem_map.2 ⟨u, List.mem_filter.2 ⟨hu, ?_⟩, hvi⟩
  rw [Bool.and_eq_true, decide_eq_true_eq, hvi]
  exact ⟨hle, hpu.2⟩

end Consistent

/-! ## Small crowds -/

/-- A request of a bucket, through a gate with a limit. -/
def limited (id : Identifier) (limit : Word) : Flight :=
  ⟨{ Policy.standard with limit := limit, extractor := .constant id }, ⟨.empty, ""⟩⟩

/-- A turn of a request at a time, with a service that answers everything. -/
def turnAt (time : Instant) (i : ι) : Turn ι Instant Canned.Client :=
  ⟨i, time, ⟨⟨⟨.ok, .empty, none⟩, none, .ready, 0⟩, true, false⟩⟩

/-- Requests one after another, each from its arrival to its answer at a time of its own. -/
def oneByOne {n : Nat} (times : Fin n → Instant) : List (Turn (Fin n) Instant Canned.Client) :=
  (List.finRange n).flatMap fun i => List.replicate 5 (turnAt (times i) i)

end Crowd

end RateGate
