import Mathlib.Data.Finset.Card
import RateGate.Proofs.Crowd.Basic
import RateGate.Proofs.Meter.Instant

/-!
# Crowds at one instant

Requests whose clocks all read the same time, counted in a meter with any past.

**Theorem (`exact_admission`).** Let a bucket show the rate `r` at the instant before any request
has begun. Whatever the schedule, its visits are told `r + 1`, `r + 2` and so on in the order in
which they are made. A request that is given all its turns reaches the service behind its gate once
if what it was told is within its own limit, and otherwise never. If all requests of the bucket are
given their turns, none of them is lost in the rate, and with one common limit just as many reach a
service as had room below it.

A schedule may stretch a request over many turns, so the time that it noted when its clock was read
is carried along (`Stamped`). From there on only the order of the visits matters, and the meter
answers for that (`Meter.toNat_rate_read_run`).
-/

namespace RateGate

open Flight

/-- The bucket of a request, if its extractor can tell. -/
def Flight.bucket? (f : Flight) : Option Identifier := (f.policy.extractor f.request).toOption

theorem Flight.bucket?_eq_some_iff {f : Flight} {id : Identifier} :
    f.bucket? = some id ↔ f.policy.extractor f.request = .ok id := by
  rw [bucket?]
  cases f.policy.extractor f.request <;> simp [Except.toOption]

/-- The requests of a bucket. -/
def requestsOf {ι : Type} [Fintype ι] (flights : ι → Flight) (id : Identifier) : Finset ι :=
  Finset.univ.filter fun i => (flights i).bucket? = some id

/-- Whatever time a request has noted, it is this one. -/
def Flight.Stage.Stamped {ε : Type} (now : Instant) : Stage ε → Prop
  | .timed _ time => time = now
  | _ => True

/-- Of `n` numbers from `r + 1` on, as many are within `limit` as there is room. -/
theorem countP_range'_le (r n limit : Nat) :
    (List.range' (r + 1) n).countP (fun k => k ≤ limit) = min n (limit - r) := by
  induction n with
  | zero => simp
  | succ n ih =>
    rw [List.range'_1_concat, List.countP_append, ih, List.countP_singleton]
    split_ifs with h <;> simp at h <;> omega

namespace Visit

variable {ι : Type}

theorem mem_toBucket {id : Identifier} {vs : List (Visit ι)} {v : Visit ι} :
    v ∈ toBucket id vs ↔ v ∈ vs ∧ v.id = id := by
  rw [toBucket, List.mem_filter, decide_eq_true_eq]

theorem toBucket_append (id : Identifier) (vs us : List (Visit ι)) :
    toBucket id (vs ++ us) = toBucket id vs ++ toBucket id us :=
  List.filter_append ..

theorem toBucket_of_eq {id : Identifier} {v : Visit ι} (h : v.id = id) : toBucket id [v] = [v] := by
  simp [toBucket, h]

theorem toBucket_of_ne {id : Identifier} {v : Visit ι} (h : v.id ≠ id) : toBucket id [v] = [] := by
  simp [toBucket, h]

theorem countP_map_call (id : Identifier) (vs : List (Visit ι)) :
    (vs.map call).countP (Call.counts id) = (toBucket id vs).length := by
  rw [List.countP_map, List.countP_eq_length_filter]
  rfl

end Visit

/-! ## The time noted -/

/-- A move at a clock that reads `now` notes no other time, and counts at none. -/
theorem Flight.Move.stamped {ι ε : Type} {f : Flight} {now : Instant} {m m' : Meter}
    {s s' : Stage ε} {i : ι} (h : f.Move now m s s' m') (hs : s.Stamped now) :
    s'.Stamped now ∧ ∀ v, Visit.between? i s s' = some v → v.time = now := by
  cases h with
  | note => exact ⟨rfl, nofun⟩
  | count =>
    refine ⟨trivial, fun v hv => ?_⟩
    cases hv
    exact hs
  | _ => exact ⟨trivial, nofun⟩

namespace Crowd

open Visit

variable {ι κ δ ε : Type} {flights : ι → Flight} {meter : Meter} {now : Instant} {x : Crowd ι ε}

/-- No request has noted another time than `now`, and none was counted at another. -/
structure Stamped (now : Instant) (x : Crowd ι ε) : Prop where
  stage : ∀ i, (x.stage i).Stamped now
  time_eq : ∀ v ∈ x.visits, v.time = now

theorem stamped_start (now : Instant) (meter : Meter) :
    (start meter : Crowd ι ε).Stamped now :=
  ⟨fun _ => trivial, fun _ hv => absurd hv List.not_mem_nil⟩

theorem Stamped.reading_eq (h : x.Stamped now) {vs : List (Visit ι)} (hvs : vs.Sublist x.visits) :
    ∀ c ∈ vs.map call, c.reading = now.epochMillis := by
  intro c hc
  obtain ⟨v, hv, rfl⟩ := List.mem_map.1 hc
  rw [← h.time_eq v (hvs.subset hv)]
  rfl

variable [DecidableEq ι]

section Run

variable [Timepiece κ] [Downstream δ ε]

theorem Stamped.step (h : x.Stamped now) {turn : Turn ι κ δ}
    (hclock : (Timepiece.read turn.clock).1 = now) : (x.step flights turn).Stamped now := by
  have hmove := move_left flights x turn
  rw [hclock] at hmove
  have hstep := hmove.stamped (i := turn.flight) (h.stage turn.flight)
  refine ⟨fun i => ?_, fun v hv => ?_⟩
  · by_cases hi : i = turn.flight
    · rw [hi, stage_step_self]
      exact hstep.1
    · rw [stage_step_of_ne _ _ hi]
      exact h.stage i
  · rcases List.mem_append.1 hv with hv | hv
    · exact h.time_eq v hv
    · exact hstep.2 v (Option.mem_toList.1 hv)

theorem Stamped.run (h : x.Stamped now) {turns : List (Turn ι κ δ)}
    (hclocks : ∀ turn ∈ turns, (Timepiece.read turn.clock).1 = now) :
    (x.run flights turns).Stamped now := by
  induction turns generalizing x with
  | nil => exact h
  | cons turn turns ih =>
    rw [List.forall_mem_cons] at hclocks
    exact ih (h.step hclocks.1) hclocks.2

end Run

/-! ## What the visits were told -/

namespace Consistent

/-- A visit was told the rate before the crowd, and one more for each visit to its bucket. -/
theorem toNat_rate_of_stamped (h : x.Consistent flights meter) (hx : x.Stamped now)
    {before after : List (Visit ι)} {v : Visit ι} (hv : x.visits = before ++ v :: after) :
    v.rate.toNat =
      min ((meter.read v.id now).rate.toNat + ((toBucket v.id before).length + 1))
        18446744073709551615 := by
  have hreading := hx.reading_eq (sublist_of_eq_append hv)
  have hmeter : ((meter.run (before.map call)).reply v.call).meter =
      meter.run ((before ++ [v]).map call) := by
    rw [List.map_append, Meter.run_append]
    rfl
  rw [h.rate_eq hv, Meter.rate_eq_rate_read_reply (hreading v.call (by simp)), hmeter]
  refine (Meter.toNat_rate_read_run v.id hreading).trans ?_
  rw [countP_map_call, toBucket_append, toBucket_of_eq rfl, List.length_append,
    List.length_singleton]

/-- The visits to a bucket were told one rate after the other. -/
theorem map_rate_toBucket (h : x.Consistent flights meter) (hx : x.Stamped now)
    {id : Identifier} (hroom : (meter.read id now).rate.toNat + (toBucket id x.visits).length <
      18446744073709551616) :
    (toBucket id x.visits).map (fun v => v.rate.toNat) =
      List.range' ((meter.read id now).rate.toNat + 1) (toBucket id x.visits).length := by
  have hprefix : ∀ vs after, x.visits = vs ++ after →
      (toBucket id vs).map (fun v => v.rate.toNat) =
        List.range' ((meter.read id now).rate.toNat + 1) (toBucket id vs).length := by
    intro vs
    induction vs using List.reverseRecOn with
    | nil => exact fun _ _ => rfl
    | append_singleton before v ih =>
      intro after hv
      rw [List.append_assoc, List.singleton_append] at hv
      have hbefore := ih (v :: after) hv
      by_cases hid : v.id = id
      · have htold := h.toNat_rate_of_stamped hx hv
        rw [hv, ← List.singleton_append, toBucket_append, toBucket_append, toBucket_of_eq hid,
          List.length_append, List.length_append, List.length_singleton] at hroom
        rw [toBucket_append, toBucket_of_eq hid, List.map_append, hbefore, List.length_append,
          List.length_singleton, List.range'_1_concat, List.map_singleton, htold, hid]
        congr 2
        omega
      · rw [toBucket_append, toBucket_of_ne hid, List.append_nil]
        exact hbefore
  exact hprefix x.visits [] (List.append_nil _).symm

theorem toNat_rate_of_getElem? (h : x.Consistent flights meter) (hx : x.Stamped now)
    {id : Identifier} (hroom : (meter.read id now).rate.toNat + (toBucket id x.visits).length <
      18446744073709551616) {j : Nat} {v : Visit ι} (hv : (toBucket id x.visits)[j]? = some v) :
    v.rate.toNat = (meter.read id now).rate.toNat + (j + 1) := by
  have hj := (List.getElem?_eq_some_iff.1 hv).1
  have htold := congrArg (·[j]?) (h.map_rate_toBucket hx hroom)
  simp only [List.getElem?_map, hv, Option.map_some, List.getElem?_range' hj, Nat.one_mul,
    Option.some.injEq] at htold
  omega

theorem toNat_rate_read (h : x.Consistent flights meter) (hx : x.Stamped now) (id : Identifier) :
    (x.meter.read id now).rate.toNat =
      min ((meter.read id now).rate.toNat + (toBucket id x.visits).length)
        18446744073709551615 := by
  rw [h.meter_eq, ← countP_map_call]
  exact Meter.toNat_rate_read_run id (hx.reading_eq (List.Sublist.refl _))

/-! ## Which requests made visits -/

/-- A request that was counted and has its answer was forwarded once if the rate it was told is
within its limit, and otherwise never. -/
theorem count_forwarded_eq (h : x.Consistent flights meter) {v : Visit ι} (hv : v ∈ x.visits)
    (hdone : (x.stage v.flight).left = 0) :
    x.forwarded.count v.flight = if v.rate ≤ (flights v.flight).policy.limit then 1 else 0 := by
  obtain ⟨result, hstage⟩ := Stage.exists_answered hdone
  have hrecord := h.record v.flight
  rw [hstage] at hrecord
  exact hrecord.eq_ite (mem_record hv)

theorem mem_forwarded_iff (h : x.Consistent flights meter) {v : Visit ι} (hv : v ∈ x.visits)
    (hdone : (x.stage v.flight).left = 0) :
    v.flight ∈ x.forwarded ↔ v.rate ≤ (flights v.flight).policy.limit := by
  rw [← List.count_pos_iff, h.count_forwarded_eq hv hdone]
  split_ifs with hle <;> simp [hle]

theorem nodup_toBucket (h : x.Consistent flights meter) (id : Identifier) :
    ((toBucket id x.visits).map Visit.flight).Nodup := by
  rw [toBucket]
  exact h.nodup_visits.sublist (List.filter_sublist.map _)

theorem card_toFinset_toBucket (h : x.Consistent flights meter) (id : Identifier) :
    ((toBucket id x.visits).map Visit.flight).toFinset.card = (toBucket id x.visits).length := by
  rw [List.toFinset_card_of_nodup (h.nodup_toBucket id), List.length_map]

variable [Fintype ι]

theorem mem_requestsOf (h : x.Consistent flights meter) {v : Visit ι} (hv : v ∈ x.visits) :
    v.flight ∈ requestsOf flights v.id :=
  Finset.mem_filter.2 ⟨Finset.mem_univ _,
    bucket?_eq_some_iff.2 ((h.record v.flight).extractor_eq (mem_record hv))⟩

/-- Every request of a bucket that has its answer made a visit to the bucket. -/
theorem exists_mem_toBucket (h : x.Consistent flights meter) {i : ι} {id : Identifier}
    (hi : i ∈ requestsOf flights id) (hdone : (x.stage i).left = 0) :
    ∃ v ∈ toBucket id x.visits, v.flight = i := by
  obtain ⟨result, hstage⟩ := Stage.exists_answered hdone
  have hrecord := h.record i
  rw [hstage] at hrecord
  obtain ⟨v, hv, hid⟩ := hrecord.exists_visit_of_answered
    (bucket?_eq_some_iff.1 (Finset.mem_filter.1 hi).2)
  obtain ⟨hv, hflight⟩ := List.mem_filter.1 hv
  exact ⟨v, mem_toBucket.2 ⟨hv, hid⟩, of_decide_eq_true hflight⟩

theorem countP_toBucket_eq_one (h : x.Consistent flights meter) {i : ι} {id : Identifier}
    (hi : i ∈ requestsOf flights id) (hdone : (x.stage i).left = 0) :
    (toBucket id x.visits).countP (fun v => v.flight = i) = 1 := by
  obtain ⟨v, hv, rfl⟩ := h.exists_mem_toBucket hi hdone
  have hcount := List.count_eq_one_of_mem (h.nodup_toBucket id) (List.mem_map_of_mem hv)
  rw [List.count, List.countP_map] at hcount
  exact hcount

theorem toFinset_toBucket_subset (h : x.Consistent flights meter) (id : Identifier) :
    ((toBucket id x.visits).map Visit.flight).toFinset ⊆ requestsOf flights id := by
  intro i hi
  obtain ⟨v, hv, rfl⟩ := List.mem_map.1 (List.mem_toFinset.1 hi)
  obtain ⟨hmem, rfl⟩ := mem_toBucket.1 hv
  exact h.mem_requestsOf hmem

theorem length_toBucket_le (h : x.Consistent flights meter) (id : Identifier) :
    (toBucket id x.visits).length ≤ (requestsOf flights id).card := by
  rw [← h.card_toFinset_toBucket]
  exact Finset.card_le_card (h.toFinset_toBucket_subset id)

theorem length_toBucket_eq (h : x.Consistent flights meter) {id : Identifier}
    (hdone : ∀ i ∈ requestsOf flights id, (x.stage i).left = 0) :
    (toBucket id x.visits).length = (requestsOf flights id).card := by
  refine Nat.le_antisymm (h.length_toBucket_le id) ?_
  rw [← h.card_toFinset_toBucket]
  apply Finset.card_le_card
  intro i hi
  obtain ⟨v, hv, rfl⟩ := h.exists_mem_toBucket hi (hdone i hi)
  exact List.mem_toFinset.2 (List.mem_map_of_mem hv)

/-- If all requests of a bucket have their answers, those forwarded are those that were told a rate
within their limits. -/
theorem length_forwarded_filter (h : x.Consistent flights meter) {id : Identifier}
    (hdone : ∀ i ∈ requestsOf flights id, (x.stage i).left = 0) :
    (x.forwarded.filter fun i => i ∈ requestsOf flights id).length =
      (toBucket id x.visits).countP fun v => v.rate ≤ (flights v.flight).policy.limit := by
  rw [List.countP_eq_length_filter, ← List.length_map Visit.flight]
  refine List.Perm.length_eq ((List.perm_ext_iff_of_nodup (h.nodup_forwarded.filter _)
    ((h.nodup_toBucket id).sublist (List.filter_sublist.map _))).2 fun i => ?_)
  rw [List.mem_filter, decide_eq_true_eq, List.mem_map]
  constructor
  · rintro ⟨hi, hbucket⟩
    obtain ⟨v, hv, rfl⟩ := h.exists_mem_toBucket hbucket (hdone i hbucket)
    have hle := (h.mem_forwarded_iff (mem_toBucket.1 hv).1 (hdone _ hbucket)).1 hi
    exact ⟨v, List.mem_filter.2 ⟨hv, decide_eq_true hle⟩, rfl⟩
  · rintro ⟨v, hv, rfl⟩
    obtain ⟨hv, hle⟩ := List.mem_filter.1 hv
    obtain ⟨hmem, rfl⟩ := mem_toBucket.1 hv
    have hbucket := h.mem_requestsOf hmem
    exact ⟨(h.mem_forwarded_iff hmem (hdone _ hbucket)).2 (of_decide_eq_true hle), hbucket⟩

/-- With one limit for a bucket, as many visits are told a rate within it as there is room. -/
theorem countP_rate_le (h : x.Consistent flights meter) (hx : x.Stamped now) {id : Identifier}
    (hroom : (meter.read id now).rate.toNat + (toBucket id x.visits).length <
      18446744073709551616) {limit : Word}
    (hlimit : ∀ i ∈ requestsOf flights id, (flights i).policy.limit = limit) :
    (toBucket id x.visits).countP (fun v => v.rate ≤ (flights v.flight).policy.limit) =
      min (toBucket id x.visits).length (limit.toNat - (meter.read id now).rate.toNat) := by
  have hlimits : (toBucket id x.visits).countP
      (fun v => v.rate ≤ (flights v.flight).policy.limit) =
      ((toBucket id x.visits).map fun v => v.rate.toNat).countP fun k => k ≤ limit.toNat := by
    rw [List.countP_map]
    apply List.countP_congr
    intro v hv
    obtain ⟨hmem, rfl⟩ := mem_toBucket.1 hv
    simp [hlimit _ (h.mem_requestsOf hmem), UInt64.le_iff_toNat_le]
  rw [hlimits, h.map_rate_toBucket hx hroom, countP_range'_le]

end Consistent

/-! ## Exact admission -/

/-- **Exact admission.** Whatever the schedule of requests whose clocks all read `now`, through any
gates with one meter of any past: the visits to a bucket are told the rates from the one before the
crowd onwards, one after the other, and the rate afterwards has grown by the visits. A request of
the bucket that is given five turns makes one visit, and reaches the service behind its gate once if
the rate it was told is within its limit, and otherwise never. If all requests of the bucket are
given five turns, the rate grows by all of them, and with one common limit as many reach a service
as had room below it. -/
theorem exact_admission [Timepiece κ] [Downstream δ ε] [Fintype ι] (meter : Meter)
    (flights : ι → Flight) (turns : List (Turn ι κ δ)) (id : Identifier) (now : Instant)
    (x : Crowd ι ε) (hx : x = (start meter).run flights turns)
    (hclocks : ∀ turn ∈ turns, (Timepiece.read turn.clock).1 = now)
    (hroom : (meter.read id now).rate.toNat + (requestsOf flights id).card <
      18446744073709551616) :
    (∀ j v, (toBucket id x.visits)[j]? = some v →
      v.rate.toNat = (meter.read id now).rate.toNat + (j + 1) ∧
      (5 ≤ turns.countP (fun turn => turn.flight = v.flight) →
        x.forwarded.count v.flight =
          if (meter.read id now).rate.toNat + (j + 1) ≤ (flights v.flight).policy.limit.toNat
          then 1 else 0)) ∧
    (x.meter.read id now).rate.toNat =
      (meter.read id now).rate.toNat + (toBucket id x.visits).length ∧
    (∀ i ∈ requestsOf flights id, 5 ≤ turns.countP (fun turn => turn.flight = i) →
      (toBucket id x.visits).countP (fun v => v.flight = i) = 1) ∧
    ((∀ i ∈ requestsOf flights id, 5 ≤ turns.countP fun turn => turn.flight = i) →
      (x.meter.read id now).rate.toNat =
        (meter.read id now).rate.toNat + (requestsOf flights id).card ∧
      ∀ limit : Word, (∀ i ∈ requestsOf flights id, (flights i).policy.limit = limit) →
        (x.forwarded.filter fun i => i ∈ requestsOf flights id).length =
          min (requestsOf flights id).card
            (limit.toNat - (meter.read id now).rate.toNat)) := by
  have h : x.Consistent flights meter := hx ▸ consistent_run flights meter turns
  have hstamped : x.Stamped now := hx ▸ (stamped_start now meter).run hclocks
  have hdone {i : ι} (hturns : 5 ≤ turns.countP fun turn => turn.flight = i) :
      (x.stage i).left = 0 :=
    hx ▸ left_stage_run_start flights meter hturns
  have hfit := (Nat.add_le_add_left (h.length_toBucket_le id) _).trans_lt hroom
  have hafter : (x.meter.read id now).rate.toNat =
      (meter.read id now).rate.toNat + (toBucket id x.visits).length := by
    rw [h.toNat_rate_read hstamped]
    omega
  refine ⟨fun j v hv => ?_, hafter, fun i hi hturns => ?_, fun hturns => ?_⟩
  · have hmem := (mem_toBucket.1 (List.mem_of_getElem? hv)).1
    have htold := h.toNat_rate_of_getElem? hstamped hfit hv
    refine ⟨htold, fun hturns => (h.count_forwarded_eq hmem (hdone hturns)).trans ?_⟩
    simp only [UInt64.le_iff_toNat_le, htold]
  · exact h.countP_toBucket_eq_one hi (hdone hturns)
  · have hall : ∀ i ∈ requestsOf flights id, (x.stage i).left = 0 :=
      fun i hi => hdone (hturns i hi)
    refine ⟨?_, fun limit hlimit => ?_⟩
    · rw [hafter, h.length_toBucket_eq hall]
    · rw [h.length_forwarded_filter hall, h.countP_rate_le hstamped hfit hlimit,
        h.length_toBucket_eq hall]

/-- A meter whose tallies are of the window before the instant and of one long past, with a sweep
due. -/
def pastMeter : Meter :=
  (Meter.fresh .standard).run
    [.count 8 ⟨70, noNanos⟩, .count 7 ⟨365, noNanos⟩, .count 7 ⟨366, noNanos⟩]

/-- Three requests of one bucket, and one of another. -/
def roundFlights : Fin 4 → Flight := ![limited 7 3, limited 7 3, limited 8 3, limited 7 3]

/-- All of them under way at once. -/
def rounds : List (Turn (Fin 4) Instant Canned.Client) :=
  (List.replicate 5 [3, 0, 2, 1]).flatten.map (turnAt ⟨430, noNanos⟩)

theorem exact_admission_rounds :
    (((start pastMeter : Crowd (Fin 4) String).run roundFlights rounds).meter.read 7
      ⟨430, noNanos⟩).rate.toNat = 1 + 3 ∧
    (((start pastMeter : Crowd (Fin 4) String).run roundFlights rounds).forwarded.filter fun i =>
      i ∈ requestsOf roundFlights 7).length = min 3 (3 - 1) := by
  have hpast : (pastMeter.read 7 ⟨430, noNanos⟩).rate.toNat = 1 := by decide +kernel
  have hcard : (requestsOf roundFlights 7).card = 3 := by decide
  have h := exact_admission pastMeter roundFlights rounds 7 ⟨430, noNanos⟩
    ((start pastMeter : Crowd (Fin 4) String).run roundFlights rounds) rfl (by decide)
    (by rw [hpast, hcard]; decide)
  obtain ⟨hrate, hforwarded⟩ := h.2.2.2 (by decide)
  rw [hpast, hcard] at hrate hforwarded
  exact ⟨hrate, hforwarded 3 (by decide)⟩

end Crowd

end RateGate
