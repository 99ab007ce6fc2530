import Mathlib.Algebra.Order.Floor.Div
import RateGate.Proofs.Crowd.Basic

/-!
# Budgets

How many requests of one bucket get through, whatever the schedule.

**Theorem (`length_forwardedOf_window_le`).** Of the requests with a reading in one window, at most
as many are forwarded as the largest limit allows, late readings included.

**Theorem (`length_forwardedOf_interval_le`).** Where readings never fall back and the limit is one,
the requests with a reading in any interval of one width exceed the limit by at most the share of it
that the interval takes of its second window, rounded up.

In both proofs the last request that was forwarded is the witness: the rate it was told was within
its limit, and that rate counts the requests before it, forwarded or not
(`countP_le_of_last`).
-/

namespace RateGate

/-- To bound how many elements of a list have a property, look at the last that has it. -/
theorem countP_le_of_last {α : Type} {p : α → Bool} {l : List α} {n : Nat}
    (h : ∀ before a after, l = before ++ a :: after → p a → (before ++ [a]).countP p ≤ n) :
    l.countP p ≤ n := by
  induction l using List.reverseRecOn with
  | nil => exact Nat.zero_le n
  | append_singleton l a ih =>
    by_cases ha : p a
    · exact h l a [] rfl ha
    · rw [List.countP_append, List.countP_singleton, if_neg ha]
      refine ih fun before b after hl hb => h before b (after ++ [a]) ?_ hb
      rw [hl, List.append_assoc, List.cons_append]

theorem countP_le_add {α : Type} {p q r : α → Bool} {l : List α}
    (h : ∀ a ∈ l, p a → q a ∨ r a) : l.countP p ≤ l.countP q + l.countP r := by
  induction l with
  | nil => exact Nat.zero_le _
  | cons a l ih =>
    have hrest := ih fun b hb => h b (List.mem_cons_of_mem a hb)
    have hhead := h a List.mem_cons_self
    rw [List.countP_cons, List.countP_cons, List.countP_cons]
    split_ifs with hp hq hr hr <;> first | omega | exact absurd (hhead hp) (by simp_all)

/-- An interval of one width reaches back into the window before its last one, and no further. -/
theorem div_eq_or_succ_div_eq {w r t : Nat} (hw : 0 < w) (hle : r ≤ t) (hlt : t < r + w) :
    r / w + 1 = t / w ∨ r / w = t / w := by
  have hlow : r / w ≤ t / w := Nat.div_le_div_right hle
  have hhigh : t / w ≤ r / w + 1 := by
    rw [← Nat.add_div_right r hw]
    exact Nat.div_le_div_right hlt.le
  omega

/-- A number is covered by its share of `e` parts in `w`, rounded up, and that of the other parts,
rounded down. -/
theorem le_ceilDiv_add_div {a e w : Nat} (hw : 0 < w) :
    a ≤ a * e ⌈/⌉ w + a * (w - e) / w := by
  have hup : a * e ≤ w * (a * e ⌈/⌉ w) := (ceilDiv_le_iff_le_mul hw).1 le_rfl
  have hdown : a * (w - e) < w * (a * (w - e) / w + 1) := Nat.lt_mul_div_succ _ hw
  have hsplit : w * a ≤ a * e + a * (w - e) := by
    rw [← Nat.mul_add, Nat.mul_comm]
    exact Nat.mul_le_mul_left a (by omega)
  have hlt : w * a < w * (a * e ⌈/⌉ w + (a * (w - e) / w + 1)) := by
    rw [Nat.mul_add w]
    omega
  exact Nat.le_of_lt_succ (Nat.lt_of_mul_lt_mul_left hlt)

/-- If `n` events of a window and the share of the `m` events before it stay within `limit`, then so
do the events of an interval that ends in the window, but for the share of `limit` that the interval
takes of it. -/
theorem add_le_of_share_le {a m n e s w limit : Nat} (hw : 0 < w) (hs : s ≤ e) (ham : a ≤ m)
    (hal : a ≤ limit) (hrate : n + m * (w - s) / w ≤ limit) :
    a + n ≤ limit + limit * e ⌈/⌉ w := by
  have hcover := le_ceilDiv_add_div (a := a) (e := e) hw
  have hup : a * e ⌈/⌉ w ≤ limit * e ⌈/⌉ w :=
    Nat.div_le_div_right (by have := Nat.mul_le_mul_right e hal; omega)
  have hdown : a * (w - e) / w ≤ m * (w - s) / w :=
    Nat.div_le_div_right (Nat.mul_le_mul ham (by omega))
  omega

namespace Visit

variable {ι : Type}

/-- The readings of the visits to a bucket. -/
def readingsOf (id : Identifier) (vs : List (Visit ι)) : List Nat :=
  (toBucket id vs).map reading

theorem readings_map_call (vs : List (Visit ι)) : readings (vs.map call) = vs.map reading :=
  List.map_map

theorem events_map_call (id : Identifier) (vs : List (Visit ι)) :
    events id (vs.map call) = readingsOf id vs := by
  rw [events, List.filter_map, readings_map_call]
  rfl

theorem readingsOf_append_self (vs : List (Visit ι)) (v : Visit ι) :
    readingsOf v.id (vs ++ [v]) = readingsOf v.id vs ++ [v.reading] := by
  simp [readingsOf, toBucket, List.filter_append]

theorem readingsOf_sublist {vs before after : List (Visit ι)} {v : Visit ι}
    (hv : vs = before ++ v :: after) :
    (readingsOf v.id before ++ [v.reading]).Sublist (vs.map reading) := by
  rw [← readingsOf_append_self]
  exact (List.filter_sublist.trans (sublist_of_eq_append hv)).map _

theorem length_readingsOf_lt {vs before after : List (Visit ι)} {v : Visit ι} {n : Nat}
    (hv : vs = before ++ v :: after) (hlength : vs.length < n) :
    (readingsOf v.id before ++ [v.reading]).length < n := by
  have hle := (readingsOf_sublist hv).length_le
  rw [List.length_map] at hle
  exact hle.trans_lt hlength

/-- Whether a visit is to a bucket and has a reading with a property. -/
def isFor (id : Identifier) (p : Nat → Bool) (v : Visit ι) : Bool :=
  decide (v.id = id) && p v.reading

/-- Whether such a visit was told a rate within a limit. -/
def passes (limit : Word) (id : Identifier) (p : Nat → Bool) (v : Visit ι) : Bool :=
  decide (v.rate ≤ limit) && v.isFor id p

theorem isFor_iff {id : Identifier} {p : Nat → Bool} {v : Visit ι} :
    v.isFor id p = true ↔ v.id = id ∧ p v.reading = true := by
  rw [isFor, Bool.and_eq_true, decide_eq_true_eq]

theorem passes_iff {limit : Word} {id : Identifier} {p : Nat → Bool} {v : Visit ι} :
    v.passes limit id p = true ↔ v.rate ≤ limit ∧ v.id = id ∧ p v.reading = true := by
  rw [passes, Bool.and_eq_true, decide_eq_true_eq, isFor_iff]

theorem countP_readingsOf (id : Identifier) (p : Nat → Bool) (vs : List (Visit ι)) :
    (readingsOf id vs).countP p = vs.countP (isFor id p) := by
  rw [readingsOf, toBucket, List.countP_map, List.countP_filter]
  exact List.countP_congr fun v _ => by simp [isFor, and_comm]

/-- An interval of one width, cut where its last window begins. -/
theorem countP_interval_le_add {width : Nat} (hw : 0 < width) (limit : Word) (id : Identifier)
    (t : Nat) (vs : List (Visit ι)) :
    vs.countP (passes limit id fun r => r ≤ t ∧ t < r + width) ≤
      vs.countP (passes limit id fun r => r / width + 1 = t / width) +
        vs.countP (isFor id fun r => r / width = t / width) := by
  apply countP_le_add
  intro v _ hv
  obtain ⟨hrate, hid, hinside⟩ := passes_iff.1 hv
  obtain ⟨hle, hlt⟩ := of_decide_eq_true hinside
  rcases div_eq_or_succ_div_eq hw hle hlt with hk | hk
  · exact Or.inl (passes_iff.2 ⟨hrate, hid, decide_eq_true hk⟩)
  · exact Or.inr (isFor_iff.2 ⟨hid, decide_eq_true hk⟩)

end Visit

namespace Crowd

open Visit

variable {ι κ δ ε : Type} [DecidableEq ι] {flights : ι → Flight} {c : Meter.Config}
  {x : Crowd ι ε}

theorem Consistent.toNat_rate_eq (h : x.Consistent flights (.fresh c))
    (htimely : Timely c.width.toNat (x.visits.map reading)) {before after : List (Visit ι)}
    {v : Visit ι} (hv : x.visits = before ++ v :: after) :
    v.rate.toNat =
      rateAfter c.width.toNat (windows c.width.toNat (readingsOf v.id (before ++ [v])))
        v.reading := by
  have hprefix : Timely c.width.toNat (readings (before.map call ++ [v.call])) := by
    rw [← List.map_singleton, ← List.map_append, readings_map_call]
    exact htimely.sublist ((sublist_of_eq_append hv).map _)
  rw [h.rate_eq hv, Meter.toNat_rate_reply_run c hprefix, ← events_map_call, List.map_append]
  rfl

/-! ## One window -/

/-- Of the visits to a bucket with a reading in one window, no more than `limit` are told a rate
within `limit`. -/
theorem Consistent.countP_window_le (h : x.Consistent flights (.fresh c))
    (htimely : Timely c.width.toNat (x.visits.map reading))
    (hlength : x.visits.length < 18446744073709551616) (limit : Word) (id : Identifier) (k : Nat) :
    x.visits.countP (passes limit id fun r => r / c.width.toNat = k) ≤ limit.toNat := by
  apply countP_le_of_last
  intro before v after hv hp
  obtain ⟨hrate, hid, hk⟩ := passes_iff.1 hp
  obtain rfl := hid
  obtain rfl := of_decide_eq_true hk
  have hreadings := readingsOf_sublist hv
  have hfew := length_readingsOf_lt hv hlength
  calc (before ++ [v]).countP (passes limit v.id _)
      ≤ (before ++ [v]).countP
          (isFor v.id fun r => r / c.width.toNat = v.reading / c.width.toNat) :=
        List.countP_mono_left fun u _ hu => isFor_iff.2 (passes_iff.1 hu).2
    _ = (readingsOf v.id before ++ [v.reading]).countP
          fun r => r / c.width.toNat = v.reading / c.width.toNat := by
        rw [← countP_readingsOf, readingsOf_append_self]
    _ ≤ rateAfter c.width.toNat (windows c.width.toNat (readingsOf v.id (before ++ [v])))
          v.reading := by
        rw [readingsOf_append_self]
        exact countP_le_rateAfter c.width_pos (htimely.sublist hreadings) hfew
    _ = v.rate.toNat := (h.toNat_rate_eq htimely hv).symm
    _ ≤ limit.toNat := UInt64.le_iff_toNat_le.1 hrate

/-- **Budget of a window.** Whatever the schedule of requests through gates with limits up to
`limit` that share one fresh meter: of the requests of a bucket with a reading in window `k`, no
more than `limit` are forwarded. -/
theorem length_forwardedOf_window_le [Timepiece κ] [Downstream δ ε] [Fintype ι] (c : Meter.Config)
    (flights : ι → Flight) (limit : Word) (turns : List (Turn ι κ δ)) (id : Identifier) (k : Nat)
    (hcard : Fintype.card ι < 18446744073709551616)
    (hlimit : ∀ i, (flights i).policy.limit ≤ limit)
    (htimely : Timely c.width.toNat
      (((start (.fresh c) : Crowd ι ε).run flights turns).visits.map reading)) :
    (((start (.fresh c) : Crowd ι ε).run flights turns).forwardedOf (isFor id fun r =>
      k * c.width.toNat ≤ r ∧ r < (k + 1) * c.width.toNat)).length ≤ limit.toNat := by
  have h : ((start (.fresh c) : Crowd ι ε).run flights turns).Consistent flights (.fresh c) :=
    consistent_run flights (.fresh c) turns
  apply (h.length_forwardedOf_le _).trans
  apply Nat.le_trans ?_ (h.countP_window_le htimely (h.length_visits_le.trans_lt hcard) limit id k)
  apply List.countP_mono_left
  intro v _ hv
  rw [Bool.and_eq_true, decide_eq_true_eq, isFor_iff, decide_eq_true_eq] at hv
  obtain ⟨hrate, hid, hlow, hhigh⟩ := hv
  exact passes_iff.2 ⟨UInt64.le_trans hrate (hlimit _), hid,
    decide_eq_true (Nat.div_eq_of_lt_le hlow hhigh)⟩

/-- Four requests of window 1, two of them after the clock has been in window 2. These two count
into window 2, and the second is refused. -/
def lateTurns : List (Turn (Fin 5) Instant Canned.Client) :=
  oneByOne ![⟨70, noNanos⟩, ⟨75, noNanos⟩, ⟨130, noNanos⟩, ⟨119, noNanos⟩, ⟨118, noNanos⟩]

def lateCrowd : Crowd (Fin 5) String :=
  (start (.fresh .standard)).run (fun _ => limited 7 4) lateTurns

theorem length_forwardedOf_window_le_lateCrowd :
    Timely 60000 (lateCrowd.visits.map reading) ∧
      (lateCrowd.forwardedOf (isFor 7 fun r => 1 * 60000 ≤ r ∧ r < (1 + 1) * 60000)).length = 3 ∧
      (lateCrowd.forwardedOf (isFor 7 fun r => 1 * 60000 ≤ r ∧ r < (1 + 1) * 60000)).length ≤ 4 := by
  have htimely : Timely 60000 (lateCrowd.visits.map reading) := by decide
  refine ⟨htimely, by decide +kernel, ?_⟩
  exact length_forwardedOf_window_le .standard (fun _ => limited 7 4) 4 lateTurns 7 1
    (by decide) (fun _ => UInt64.le_refl 4) htimely

/-! ## Any interval of one width -/

/-- Up to any visit, those of the older window of an interval that are told a rate within `limit`
number no more than `limit`. -/
theorem Consistent.countP_older_le (h : x.Consistent flights (.fresh c))
    (htimely : Timely c.width.toNat (x.visits.map reading))
    (hlength : x.visits.length < 18446744073709551616) (limit : Word) (id : Identifier) (k : Nat)
    {vs : List (Visit ι)} (hvs : vs.Sublist x.visits) :
    vs.countP (passes limit id fun r => r / c.width.toNat + 1 = k) ≤ limit.toNat := by
  apply hvs.countP_le.trans
  apply Nat.le_trans ?_ (h.countP_window_le htimely hlength limit id (k - 1))
  apply List.countP_mono_left
  intro v _ hv
  obtain ⟨hrate, hid, hold⟩ := passes_iff.1 hv
  exact passes_iff.2 ⟨hrate, hid, decide_eq_true (Nat.eq_sub_of_add_eq (of_decide_eq_true hold))⟩

/-- Of the visits to a bucket with a reading in an interval of one width, those told a rate within
`limit` exceed it by a share at most. -/
theorem Consistent.countP_interval_le (h : x.Consistent flights (.fresh c))
    (htop : ∀ r ∈ x.visits.map reading, r < 18446744073709551615)
    (hsorted : (x.visits.map reading).Pairwise (· ≤ ·))
    (hlength : x.visits.length < 18446744073709551616) (limit : Word) (id : Identifier) (t : Nat) :
    x.visits.countP (passes limit id fun r => r ≤ t ∧ t < r + c.width.toNat) ≤
      limit.toNat + limit.toNat * (t % c.width.toNat) ⌈/⌉ c.width.toNat := by
  have hw := c.width_pos
  have htimely : Timely c.width.toNat (x.visits.map reading) := timely_of_sorted htop hsorted
  apply countP_le_of_last
  intro before v after hv hp
  obtain ⟨hrate, hid, hinside⟩ := passes_iff.1 hp
  obtain rfl := hid
  obtain ⟨hle, hlt⟩ := of_decide_eq_true hinside
  have hreadings := readingsOf_sublist hv
  have hfew := length_readingsOf_lt hv hlength
  have hevents := hsorted.sublist hreadings
  have htold := (h.toNat_rate_eq htimely hv).symm.trans_le (UInt64.le_iff_toNat_le.1 hrate)
  rw [readingsOf_append_self, rateAfter_of_sorted hevents hfew] at htold
  have holder := h.countP_older_le htimely hlength limit v.id (t / c.width.toNat)
    (sublist_of_eq_append hv)
  refine (countP_interval_le_add hw limit v.id t _).trans ?_
  rw [← countP_readingsOf, readingsOf_append_self]
  rcases div_eq_or_succ_div_eq hw hle hlt with hold | hnew
  -- The last request is of the older window, and so are all before it.
  · rw [countP_eq_zero_of_sorted hevents (by omega)]
    exact holder.trans (Nat.le_add_right _ _)
  -- The last request is of the newer window, and was told a share of the older one.
  · rw [hnew] at htold
    refine add_le_of_share_le hw ?_ ?_ holder htold
    · have hs := Nat.div_add_mod v.reading c.width.toNat
      have ht := Nat.div_add_mod t c.width.toNat
      rw [hnew] at hs
      omega
    · rw [← readingsOf_append_self, countP_readingsOf]
      exact List.countP_mono_left fun u _ hu => isFor_iff.2 (passes_iff.1 hu).2

/-- **Budget of an interval.** If the readings never fall back and all gates have one limit, then
the requests of a bucket that are forwarded with a reading in the interval of one width that ends at
`t` number at most the limit, and the share of it that the interval takes of the window of `t`. -/
theorem length_forwardedOf_interval_le [Timepiece κ] [Downstream δ ε] [Fintype ι]
    (c : Meter.Config) (flights : ι → Flight) (limit : Word) (turns : List (Turn ι κ δ))
    (id : Identifier) (t : Nat)
    (hcard : Fintype.card ι < 18446744073709551616)
    (hlimit : ∀ i, (flights i).policy.limit = limit)
    (htop : ∀ r ∈ ((start (.fresh c) : Crowd ι ε).run flights turns).visits.map reading,
      r < 18446744073709551615)
    (hsorted : (((start (.fresh c) : Crowd ι ε).run flights turns).visits.map reading).Pairwise
      (· ≤ ·)) :
    (((start (.fresh c) : Crowd ι ε).run flights turns).forwardedOf (isFor id fun r =>
      r ≤ t ∧ t < r + c.width.toNat)).length ≤
        limit.toNat + limit.toNat * (t % c.width.toNat) ⌈/⌉ c.width.toNat := by
  have h : ((start (.fresh c) : Crowd ι ε).run flights turns).Consistent flights (.fresh c) :=
    consistent_run flights (.fresh c) turns
  apply (h.length_forwardedOf_le _).trans
  apply Nat.le_trans ?_
    (h.countP_interval_le htop hsorted (h.length_visits_le.trans_lt hcard) limit id t)
  apply List.countP_mono_left
  intro v _ hv
  rw [Bool.and_eq_true, decide_eq_true_eq, hlimit] at hv
  exact passes_iff.2 ⟨hv.1, isFor_iff.1 hv.2⟩

/-- Two requests at the end of window 1 and two at the end of window 2. All four pass, in an
interval that takes 58999 milliseconds of window 2. -/
def edgeTurns : List (Turn (Fin 4) Instant Canned.Client) :=
  oneByOne ![⟨119, noNanos⟩, ⟨119, noNanos⟩, ⟨178, noNanos⟩, ⟨178, noNanos⟩]

def edgeCrowd : Crowd (Fin 4) String :=
  (start (.fresh .standard)).run (fun _ => limited 7 2) edgeTurns

theorem length_forwardedOf_interval_le_edgeCrowd :
    (edgeCrowd.visits.map reading).Pairwise (· ≤ ·) ∧
      (edgeCrowd.forwardedOf (isFor 7 fun r => r ≤ 178999 ∧ 178999 < r + 60000)).length = 4 ∧
      (edgeCrowd.forwardedOf (isFor 7 fun r => r ≤ 178999 ∧ 178999 < r + 60000)).length ≤
        2 + 2 * 58999 ⌈/⌉ 60000 := by
  have hsorted : (edgeCrowd.visits.map reading).Pairwise (· ≤ ·) := by decide
  refine ⟨hsorted, by decide +kernel, ?_⟩
  exact length_forwardedOf_interval_le .standard (fun _ => limited 7 2) 2 edgeTurns 7 178999
    (by decide) (fun _ => rfl) (by decide) hsorted

end Crowd

end RateGate
