import Mathlib.Algebra.Order.Ring.Nat
import Mathlib.Data.List.Induction

/-!
# Windows of a history

The events of one identifier, given by their readings in the order in which they were counted. An
event counts into the window of its reading, but never into an earlier window than the event before
it. Windows are numbered: window `k` holds the readings from `k * width` up to the next multiple.

`rateAfter` is the rate that such a history shows, in closed form: the events of the current window,
and of those of the window before the share that a window ending at the reading still covers.

Histories whose readings fall back by at most one width are `Timely`. There, a reading of window `k`
counts into window `k` or `k + 1` (`countP_le_count_add_count`), and the rate at a reading of window
`k` is at least the number of readings of that window so far (`countP_le_rateAfter`).
-/

namespace RateGate

/-- The windows that events at these readings count into, after an event in window `last`. -/
def windowsFrom (width last : Nat) : List Nat → List Nat
  | [] => []
  | t :: ts => max last (t / width) :: windowsFrom width (max last (t / width)) ts

/-- The windows that the events of a history count into. -/
def windows (width : Nat) (events : List Nat) : List Nat := windowsFrom width 0 events

/-- The window of the last event, or zero if there is none. -/
def latest (ws : List Nat) : Nat := ws.getLastD 0

/-- The number as far as a word can hold it. -/
def capped (n : Nat) : Nat := min n 18446744073709551615

/-- The rate at a reading `t` after events in the windows `ws`. A reading before the window of the
last event sees that window from its start. -/
def rateAfter (width : Nat) (ws : List Nat) (t : Nat) : Nat :=
  let w := max (t / width) (latest ws)
  let elapsed := if t / width = w then t % width else 0
  let carried := capped (ws.countP fun x => x + 1 = w)
  capped (capped (ws.count w) + carried * (width - elapsed) / width)

/-- Readings before the last one there is, none more than `width` behind an earlier one. -/
def Timely (width : Nat) (readings : List Nat) : Prop :=
  (∀ t ∈ readings, t < 18446744073709551615) ∧ readings.Pairwise fun t u => t ≤ u + width

instance (width : Nat) (readings : List Nat) : Decidable (Timely width readings) :=
  inferInstanceAs (Decidable (_ ∧ _))

theorem mul_sub_div_le (n width elapsed : Nat) : n * (width - elapsed) / width ≤ n := by
  apply Nat.div_le_of_le_mul
  rw [Nat.mul_comm]
  exact Nat.mul_le_mul_right n (Nat.sub_le _ _)

variable {width : Nat} {ws : List Nat}

/-! ## Windows in order -/

theorem windowsFrom_append (width last : Nat) (events : List Nat) (t : Nat) :
    windowsFrom width last (events ++ [t]) =
      windowsFrom width last events ++
        [max ((windowsFrom width last events).getLastD last) (t / width)] := by
  induction events generalizing last with
  | nil => rfl
  | cons u events ih =>
    rw [List.cons_append, windowsFrom, windowsFrom, ih, List.getLastD_cons, List.cons_append]

/-- One more event counts into the window of its reading or into that of the last event. -/
theorem windows_append (width : Nat) (events : List Nat) (t : Nat) :
    windows width (events ++ [t]) =
      windows width events ++ [max (latest (windows width events)) (t / width)] :=
  windowsFrom_append width 0 events t

@[simp] theorem length_windows (width : Nat) (events : List Nat) :
    (windows width events).length = events.length := by
  induction events using List.reverseRecOn with
  | nil => rfl
  | append_singleton events t ih =>
    rw [windows_append, List.length_append, List.length_append, ih, List.length_singleton,
      List.length_singleton]

@[simp] theorem latest_nil : latest [] = 0 := rfl

@[simp] theorem latest_append (ws : List Nat) (w : Nat) : latest (ws ++ [w]) = w := by
  simp [latest, List.getLastD_eq_getLast?]

/-- No event counts into a later window than the last one. -/
theorem le_latest {events : List Nat} :
    ∀ w ∈ windows width events, w ≤ latest (windows width events) := by
  induction events using List.reverseRecOn with
  | nil => exact fun w hw => absurd hw List.not_mem_nil
  | append_singleton events t ih =>
    intro w hw
    rw [windows_append, List.mem_append, List.mem_singleton] at hw
    rw [windows_append, latest_append]
    rcases hw with hw | rfl
    · exact (ih w hw).trans (le_max_left _ _)
    · exact le_rfl

theorem latest_mem (h : ws ≠ []) : latest ws ∈ ws := by
  rw [latest, List.getLastD_eq_getLast?, List.getLast?_eq_some_getLast h]
  exact List.getLast_mem h

theorem exists_reading_of_mem {events : List Nat} {w : Nat} (hw : w ∈ windows width events) :
    ∃ t ∈ events, t / width = w := by
  induction events using List.reverseRecOn generalizing w with
  | nil => exact absurd hw List.not_mem_nil
  | append_singleton events t ih =>
    rw [windows_append, List.mem_append, List.mem_singleton] at hw
    have hold : w ∈ windows width events → ∃ u ∈ events ++ [t], u / width = w := fun h => by
      obtain ⟨u, hu, rfl⟩ := ih h
      exact ⟨u, List.mem_append_left _ hu, rfl⟩
    rcases hw with hw | hw
    · exact hold hw
    -- The event counts into the window of its reading, or into one that was counted into before.
    · rcases le_total (latest (windows width events)) (t / width) with h | h
      · exact ⟨t, List.mem_append_right _ (List.mem_singleton_self t), by rw [hw, max_eq_right h]⟩
      · rw [max_eq_left h] at hw
        by_cases hnil : windows width events = []
        · rw [hnil, latest_nil] at h hw
          exact ⟨t, List.mem_append_right _ (List.mem_singleton_self t),
            (Nat.le_zero.1 h).trans hw.symm⟩
        · exact hold (hw ▸ latest_mem hnil)

/-! ## Counting windows -/

theorem latest_le {w : Nat} (h : ∀ x ∈ ws, x ≤ w) : latest ws ≤ w := by
  by_cases hnil : ws = []
  · rw [hnil, latest_nil]
    exact Nat.zero_le w
  · exact h _ (latest_mem hnil)

theorem count_eq_zero_of_lt {w : Nat} (h : ∀ x ∈ ws, x < w) : ws.count w = 0 :=
  List.count_eq_zero.2 fun hw => absurd (h w hw) (Nat.lt_irrefl w)

theorem countP_succ_eq (ws : List Nat) (w : Nat) :
    (ws.countP fun x => x + 1 = w + 1) = ws.count w := by
  rw [List.count]
  apply List.countP_congr
  intro x _
  simp

theorem count_add_count_le {v w : Nat} (hne : v ≠ w) : ws.count v + ws.count w ≤ ws.length := by
  have hmono : ws.count w ≤ ws.countP fun x => decide ¬(x == v) = true :=
    List.countP_mono_left fun x _ hx => by
      have hxw : x = w := by simpa using hx
      simp [hxw, hne.symm]
  rw [List.length_eq_countP_add_countP (· == v)]
  exact Nat.add_le_add_left hmono _

theorem countP_succ_eq_zero {w : Nat} (h : ∀ x ∈ ws, x + 1 < w) :
    (ws.countP fun x => x + 1 = w) = 0 := by
  apply List.countP_eq_zero.2
  intro x hx
  rw [decide_eq_true_eq]
  exact (h x hx).ne

/-! ## Timely histories -/

theorem Timely.sublist {rs qs : List Nat} (h : Timely width rs) (hsub : qs.Sublist rs) :
    Timely width qs :=
  ⟨fun t ht => h.1 t (hsub.subset ht), h.2.sublist hsub⟩

theorem timely_of_sorted {rs : List Nat} (htop : ∀ t ∈ rs, t < 18446744073709551615)
    (hsorted : rs.Pairwise (· ≤ ·)) : Timely width rs :=
  ⟨htop, hsorted.imp fun h => Nat.le_trans h (Nat.le_add_right _ _)⟩

theorem Timely.last_lt {rs : List Nat} {t : Nat} (h : Timely width (rs ++ [t])) :
    t < 18446744073709551615 :=
  h.1 t (List.mem_append_right _ (List.mem_singleton_self t))

theorem Timely.le_add {rs : List Nat} {t : Nat} (h : Timely width (rs ++ [t])) :
    ∀ u ∈ rs ++ [t], u ≤ t + width := by
  intro u hu
  rcases List.mem_append.1 hu with hu | hu
  · exact (List.pairwise_append.1 h.2).2.2 u hu t (List.mem_singleton_self t)
  · rw [List.mem_singleton.1 hu]
    exact Nat.le_add_right _ _

/-- An event with a reading of window `k` counts into window `k` or into the next. -/
theorem Timely.latest_le_succ (hw : 0 < width) {events : List Nat} {t : Nat}
    (h : Timely width (events ++ [t])) : latest (windows width events) ≤ t / width + 1 := by
  apply latest_le
  intro w hmem
  obtain ⟨u, hu, rfl⟩ := exists_reading_of_mem hmem
  rw [← Nat.add_div_right t hw]
  exact Nat.div_le_div_right (h.le_add u (List.mem_append_left _ hu))

/-- The readings of a window are among the events of that window and of the next. -/
theorem countP_le_count_add_count (hw : 0 < width) {events : List Nat} (h : Timely width events)
    (k : Nat) :
    (events.countP fun t => t / width = k) ≤
      (windows width events).count k + (windows width events).count (k + 1) := by
  induction events using List.reverseRecOn with
  | nil => exact Nat.zero_le _
  | append_singleton events t ih =>
    have hrest := ih (h.sublist (List.sublist_append_left _ _))
    have hlatest := h.latest_le_succ hw
    rw [windows_append, List.countP_append, List.count_append, List.count_append,
      List.countP_singleton, List.count_singleton, List.count_singleton]
    by_cases hk : t / width = k
    · have hcases : max (latest (windows width events)) (t / width) = k ∨
          max (latest (windows width events)) (t / width) = k + 1 := by omega
      rw [hk] at hcases ⊢
      rcases hcases with hmax | hmax <;> simp [hmax] <;> omega
    · simp only [hk, decide_false, Bool.false_eq_true, if_false]
      omega

/-- **Each reading of a window sees the others.** The rate after an event at a reading of window `k`
is at least the number of readings of that window so far, its own included. A reading that counts
into window `k + 1` sees all of window `k` carried in full. -/
theorem countP_le_rateAfter (hw : 0 < width) {events : List Nat} {t : Nat}
    (h : Timely width (events ++ [t])) (hlength : (events ++ [t]).length < 18446744073709551616) :
    ((events ++ [t]).countP fun u => u / width = t / width) ≤
      rateAfter width (windows width (events ++ [t])) t := by
  have hcount := countP_le_count_add_count hw h (t / width)
  have hlatest := h.latest_le_succ hw
  have hle : ∀ w ∈ windows width (events ++ [t]), w ≤ latest (windows width (events ++ [t])) :=
    le_latest
  have htotal : (windows width (events ++ [t])).count (t / width) +
      (windows width (events ++ [t])).count (t / width + 1) ≤ (events ++ [t]).length := by
    rw [← length_windows width]
    exact count_add_count_le (Nat.ne_of_lt (Nat.lt_succ_self _))
  rw [rateAfter]
  generalize hws : windows width (events ++ [t]) = ws at *
  have hlast : latest ws = max (latest (windows width events)) (t / width) := by
    rw [← hws, windows_append, latest_append]
  have hcases : latest ws = t / width ∨ latest ws = t / width + 1 := by omega
  rcases hcases with hnow | hnext
  · have hnone : ws.count (t / width + 1) = 0 :=
      count_eq_zero_of_lt fun w hmem => Nat.lt_succ_of_le (hnow ▸ hle w hmem)
    rw [hnow, max_self]
    simp only [capped]
    generalize _ * _ / width = share
    omega
  · rw [hnext, max_eq_right (Nat.le_add_right _ 1), countP_succ_eq,
      if_neg (Nat.ne_of_lt (Nat.lt_succ_self _)), Nat.sub_zero, Nat.mul_div_cancel _ hw]
    simp only [capped]
    omega

/-! ## Histories that never fall back -/

theorem windows_of_sorted {events : List Nat} (h : events.Pairwise (· ≤ ·)) :
    windows width events = events.map (· / width) := by
  induction events using List.reverseRecOn with
  | nil => rfl
  | append_singleton events t ih =>
    obtain ⟨hevents, -, hlast⟩ := List.pairwise_append.1 h
    have hmap := ih hevents
    have hlatest : latest (windows width events) ≤ t / width := by
      apply latest_le
      intro w hmem
      obtain ⟨u, hu, rfl⟩ := exists_reading_of_mem hmem
      exact Nat.div_le_div_right (hlast u hu t (List.mem_singleton_self t))
    rw [windows_append, max_eq_right hlatest, hmap, List.map_append, List.map_singleton]

theorem countP_eq_zero_of_sorted {events : List Nat} {t k : Nat}
    (h : (events ++ [t]).Pairwise (· ≤ ·)) (hk : t / width < k) :
    ((events ++ [t]).countP fun u => u / width = k) = 0 := by
  apply List.countP_eq_zero.2
  intro u hu
  have hut : u ≤ t := by
    rcases List.mem_append.1 hu with hu | hu
    · exact (List.pairwise_append.1 h).2.2 u hu t (List.mem_singleton_self t)
    · exact (List.mem_singleton.1 hu).le
  have hdiv : u / width ≤ t / width := Nat.div_le_div_right hut
  rw [decide_eq_true_eq]
  omega

/-- Where readings never fall back, the rate counts the readings of the window of the last one, and
of those of the window before their share. -/
theorem rateAfter_of_sorted {events : List Nat} {t : Nat}
    (h : (events ++ [t]).Pairwise (· ≤ ·))
    (hlength : (events ++ [t]).length < 18446744073709551616) :
    rateAfter width (windows width (events ++ [t])) t =
      ((events ++ [t]).countP fun u => u / width = t / width) +
        ((events ++ [t]).countP fun u => u / width + 1 = t / width) * (width - t % width) /
          width := by
  have htotal : ((events ++ [t]).countP fun u => u / width = t / width) +
      ((events ++ [t]).countP fun u => u / width + 1 = t / width) ≤ (events ++ [t]).length := by
    rw [List.length_eq_countP_add_countP fun u => u / width = t / width]
    refine Nat.add_le_add_left (List.countP_mono_left fun u _ hu => ?_) _
    simp only [decide_eq_true_eq] at hu ⊢
    omega
  have hcount : (windows width (events ++ [t])).count (t / width) =
      (events ++ [t]).countP fun u => u / width = t / width := by
    rw [windows_of_sorted h, List.count, List.countP_map]
    exact List.countP_congr fun u _ => by simp
  have hbefore : (windows width (events ++ [t])).countP (fun w => w + 1 = t / width) =
      (events ++ [t]).countP fun u => u / width + 1 = t / width := by
    rw [windows_of_sorted h, List.countP_map]
    rfl
  have hlatest : latest (windows width (events ++ [t])) = t / width := by
    rw [windows_of_sorted h, List.map_append, List.map_singleton, latest_append]
  rw [rateAfter, hlatest, max_self, if_pos rfl, hcount, hbefore]
  generalize ((events ++ [t]).countP fun u => u / width = t / width) = now at *
  generalize ((events ++ [t]).countP fun u => u / width + 1 = t / width) = carried at *
  have hcapped : capped carried = carried := by
    rw [capped]
    omega
  rw [hcapped]
  have hshare := mul_sub_div_le carried width (t % width)
  simp only [capped]
  omega

end RateGate
