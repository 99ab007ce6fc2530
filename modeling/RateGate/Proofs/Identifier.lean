import Mathlib.Data.Int.GCD
import Mathlib.Data.List.Basic
import Mathlib.Tactic.LinearCombination
import RateGate.Identifier

/-!
# Keys that share a bucket

A bucket has a name of 64 bits, so there are keys that share one. Keys that are nearly the same
never do.

**Theorem (`ofBytes_separates`).** Two keys of one length that differ within a stretch of at most
three bytes have different identifiers. And what follows in both keys does not matter: with a common
ending two keys share a bucket exactly if they do without it.

The multiplier is odd, so absorbing a byte can be undone, and the ending falls away. For the stretch
we follow how far two hashes are apart, as a whole number modulo the size of a word. Mixing in a
byte moves a hash by less than 256 (`shift_bounds`), and the multiplication then magnifies the
distance, so after three rounds the distance is a polynomial in the multiplier whose coefficients
are small (`Apart.foldl`). The multiplier is a high power of two and a little more. That is why the
parts of the polynomial do not run into each other, and it is a multiple of the size of a word only
if all its coefficients are zero (`eq_zero_of_dvd`).
-/

namespace RateGate.Identifier

/-! ## Undoing a round -/

/-- The multiplier has an inverse among words, so a round is undone by it and the byte. -/
theorem absorb_inj {h k : Identifier} {b : UInt8} : absorb h b = absorb k b ↔ h = k := by
  have hinverse : multiplier * 0xce965057aff6957b = 1 := by decide
  refine ⟨fun heq => ?_, fun heq => heq ▸ rfl⟩
  have hmul := congrArg (· * 0xce965057aff6957b) heq
  simp only [absorb, UInt64.mul_assoc, hinverse, UInt64.mul_one] at hmul
  exact (UInt64.xor_left_inj _).1 hmul

theorem foldl_absorb_inj {h k : Identifier} {key : List UInt8} :
    key.foldl absorb h = key.foldl absorb k ↔ h = k := by
  induction key generalizing h k with
  | nil => exact Iff.rfl
  | cons b key ih => rw [List.foldl_cons, List.foldl_cons, ih, absorb_inj]

/-! ## One round -/

/-- How far mixing in a byte moves a hash before the multiplication. -/
def shift (hash : Identifier) (b : UInt8) : Int := (hash ^^^ b.toUInt64).toNat - hash.toNat

/-- Only the last eight bits of the hash change. -/
theorem shift_bounds (hash : Identifier) (b : UInt8) :
    -255 ≤ shift hash b ∧ shift hash b ≤ 255 := by
  have hb : b.toNat < 256 := b.toNat_lt
  have hhigh : (hash.toNat ^^^ b.toNat) / 256 = hash.toNat / 256 := by
    have hdiv : (hash.toNat ^^^ b.toNat) / 256 = hash.toNat / 256 ^^^ b.toNat / 256 :=
      Nat.xor_div_two_pow (n := 8)
    rw [hdiv, Nat.div_eq_of_lt hb, Nat.xor_zero]
  rw [shift, UInt64.toNat_xor, UInt8.toNat_toUInt64]
  omega

theorem shift_inj {hash : Identifier} {x y : UInt8} : shift hash x = shift hash y ↔ x = y := by
  refine ⟨fun h => ?_, fun h => h ▸ rfl⟩
  have hxor : (hash ^^^ x.toUInt64).toNat = (hash ^^^ y.toUInt64).toNat := by
    rw [shift, shift] at h
    omega
  have hword := (UInt64.xor_right_inj _).1 (UInt64.toNat_inj.1 hxor)
  rw [← UInt8.toNat_inj, ← UInt8.toNat_toUInt64, ← UInt8.toNat_toUInt64, hword]

/-- The hash `h` is ahead of `k` by `d`, modulo the size of a word. -/
def Apart (h k : Identifier) (d : Int) : Prop :=
  (18446744073709551616 : Int) ∣ h.toNat - k.toNat - d

theorem Apart.refl (h : Identifier) : Apart h h 0 := by
  rw [Apart, Int.sub_self, Int.sub_zero]
  exact Int.dvd_zero _

/-- After a round a hash is the moved one times the multiplier, less some words that ran over. -/
theorem toNat_absorb (hash : Identifier) (b : UInt8) :
    ∃ carry : Int, ((absorb hash b).toNat : Int) =
      1099511628211 * (hash.toNat + shift hash b) - 18446744073709551616 * carry := by
  have hword : (absorb hash b).toNat =
      (hash ^^^ b.toUInt64).toNat * 1099511628211 % 18446744073709551616 := UInt64.toNat_mul ..
  refine ⟨((hash ^^^ b.toUInt64).toNat * 1099511628211 / 18446744073709551616 : Nat), ?_⟩
  rw [hword, shift]
  omega

/-- A round moves each of the hashes, and then magnifies how far they are apart. -/
theorem Apart.absorb {h k : Identifier} {d : Int} (hd : Apart h k d) (x y : UInt8) :
    Apart (absorb h x) (absorb k y) (1099511628211 * (d + (shift h x - shift k y))) := by
  obtain ⟨words, hwords⟩ := hd
  obtain ⟨carry, hcarry⟩ := toNat_absorb h x
  obtain ⟨carry', hcarry'⟩ := toNat_absorb k y
  refine ⟨1099511628211 * words - carry + carry', ?_⟩
  linear_combination 1099511628211 * hwords + hcarry - hcarry'

/-! ## Many rounds -/

/-- The distance after rounds that begin at the distance `d`, if mixing in the bytes changes it by
these steps. -/
def spread (d : Int) (steps : List Int) : Int :=
  steps.foldl (fun d step => 1099511628211 * (d + step)) d

/-- By how much mixing in two keys changes the distance of two hashes, round by round. -/
def steps : Identifier → Identifier → List UInt8 → List UInt8 → List Int
  | h, k, x :: u, y :: v => (shift h x - shift k y) :: steps (absorb h x) (absorb k y) u v
  | _, _, _, _ => []

theorem Apart.foldl {h k : Identifier} {d : Int} (hd : Apart h k d) {u v : List UInt8}
    (hlen : u.length = v.length) :
    Apart (u.foldl Identifier.absorb h) (v.foldl Identifier.absorb k)
      (spread d (steps h k u v)) := by
  induction u generalizing h k d v with
  | nil =>
    rw [List.length_nil, eq_comm, List.length_eq_zero_iff] at hlen
    subst hlen
    exact hd
  | cons x u ih =>
    cases v with
    | nil => cases hlen
    | cons y v => exact ih (hd.absorb x y) (Nat.succ_injective hlen)

theorem steps_bounds {h k : Identifier} {u v : List UInt8} {step : Int}
    (hstep : step ∈ steps h k u v) : -510 ≤ step ∧ step ≤ 510 := by
  induction u generalizing h k v with
  | nil => cases v <;> cases hstep
  | cons x u ih =>
    cases v with
    | nil => cases hstep
    | cons y v =>
      rcases List.mem_cons.1 hstep with rfl | hrest
      · have hx := shift_bounds h x
        have hy := shift_bounds k y
        omega
      · exact ih hrest

theorem length_steps {h k : Identifier} {u v : List UInt8} (hlen : u.length = v.length) :
    (steps h k u v).length = u.length := by
  induction u generalizing h k v with
  | nil => cases v <;> rfl
  | cons x u ih =>
    cases v with
    | nil => cases hlen
    | cons y v => exact congrArg Nat.succ (ih (Nat.succ_injective hlen))

theorem eq_of_steps_eq_zero {h : Identifier} {u v : List UInt8} (hlen : u.length = v.length)
    (hzero : ∀ step ∈ steps h h u v, step = 0) : u = v := by
  induction u generalizing h v with
  | nil => exact (List.length_eq_zero_iff.1 hlen.symm).symm
  | cons x u ih =>
    cases v with
    | nil => cases hlen
    | cons y v =>
      obtain ⟨hfirst, hrest⟩ := List.forall_mem_cons.1 hzero
      have hxy : x = y := shift_inj.1 (Int.sub_eq_zero.1 hfirst)
      subst hxy
      rw [ih (Nat.succ_injective hlen) hrest]

/-! ## Three rounds -/

/-- Two parts of a number, one below a gap of forty bits and one above it, that are both too small
to meet. If the number is a multiple of the size of a word, both are zero. -/
theorem parts_eq_zero {high low : Int} (hhigh : -16777216 < high ∧ high < 16777216)
    (hlow : -1099511627776 < low ∧ low < 1099511627776)
    (h : (18446744073709551616 : Int) ∣ 1099511627776 * high + low) : high = 0 ∧ low = 0 := by
  omega

/-- The parts of the polynomial of three small steps, once the square of the multiplier is reduced.
-/
theorem steps_eq_zero {a b c : Int} (ha : -510 ≤ a ∧ a ≤ 510) (hb : -510 ≤ b ∧ b ≤ 510)
    (hc : -510 ≤ c ∧ c ≤ 510)
    (h : (18446744073709551616 : Int) ∣
      1099511627776 * (870 * a + b) + (189225 * a + 435 * b + c)) : a = 0 ∧ b = 0 ∧ c = 0 := by
  obtain ⟨hhigh, hlow⟩ := parts_eq_zero (by omega) (by omega) h
  omega

/-- Three small steps spread to a multiple of the size of a word only if all of them are zero. The
multiplier is `2 ^ 40 + 435`, and so, up to such multiples, its square is `870 * 2 ^ 40 + 189225`.
-/
theorem eq_zero_of_dvd {a b c : Int} (ha : -510 ≤ a ∧ a ≤ 510) (hb : -510 ≤ b ∧ b ≤ 510)
    (hc : -510 ≤ c ∧ c ≤ 510)
    (h : (18446744073709551616 : Int) ∣
      1099511628211 * (1099511628211 * (1099511628211 * a + b) + c)) :
    a = 0 ∧ b = 0 ∧ c = 0 := by
  obtain ⟨q, hq⟩ := Int.dvd_of_dvd_mul_right_of_gcd_one h (by decide)
  refine steps_eq_zero ha hb hc ⟨q - 65536 * a, ?_⟩
  linear_combination hq

theorem eq_zero_of_dvd_spread {steps : List Int} (hlen : steps.length = 3)
    (hsmall : ∀ step ∈ steps, -510 ≤ step ∧ step ≤ 510)
    (h : (18446744073709551616 : Int) ∣ spread 0 steps) : ∀ step ∈ steps, step = 0 := by
  obtain ⟨a, b, c, rfl⟩ := List.length_eq_three.1 hlen
  rw [spread, List.foldl_cons, List.foldl_cons, List.foldl_cons, List.foldl_nil, Int.zero_add] at h
  simp only [List.forall_mem_cons] at hsmall
  obtain ⟨ha, hb, hc, -⟩ := hsmall
  obtain ⟨rfl, rfl, rfl⟩ := eq_zero_of_dvd ha hb hc h
  simp

/-- From one hash, three bytes and three others never lead to the same hash. -/
theorem eq_of_foldl_absorb_eq {hash : Identifier} {u v : List UInt8} (hu : u.length = 3)
    (hv : v.length = 3) (heq : u.foldl absorb hash = v.foldl absorb hash) : u = v := by
  have hlen : u.length = v.length := hu.trans hv.symm
  have hapart := (Apart.refl hash).foldl hlen
  rw [heq, Apart, Int.sub_self, Int.zero_sub, Int.dvd_neg] at hapart
  have hthree : (steps hash hash u v).length = 3 := (length_steps hlen).trans hu
  exact eq_of_steps_eq_zero hlen (eq_zero_of_dvd_spread hthree (fun _ => steps_bounds) hapart)

/-! ## Keys -/

theorem ofBytes_append_inj {key other after : List UInt8} :
    ofBytes (key ++ after) = ofBytes (other ++ after) ↔ ofBytes key = ofBytes other := by
  rw [ofBytes_append, ofBytes_append, foldl_absorb_inj]

/-- Shorter stretches are as good as three bytes: more of the ending can be counted to them. -/
theorem eq_of_ofBytes_append_eq {before u v : List UInt8} (hlen : u.length = v.length)
    (hshort : u.length ≤ 3) (heq : ofBytes (before ++ u) = ofBytes (before ++ v)) : u = v := by
  let fill := List.replicate (3 - u.length) (0 : UInt8)
  have hfill : (u ++ fill).length = 3 := by
    rw [List.length_append, List.length_replicate]
    omega
  have hfill' : (v ++ fill).length = 3 := by
    rw [List.length_append, ← hlen, ← List.length_append, hfill]
  rw [ofBytes_append, ofBytes_append, ← @foldl_absorb_inj _ _ fill, ← List.foldl_append,
    ← List.foldl_append] at heq
  exact List.append_cancel_right (eq_of_foldl_absorb_eq hfill hfill' heq)

/-- **Similar keys.** Whatever stands before and after: two different stretches of one length, of at
most three bytes, give different identifiers. And whatever the keys are: a common ending neither
tells their identifiers apart nor makes them one. -/
theorem ofBytes_separates :
    (∀ before u v after : List UInt8, u.length = v.length → u.length ≤ 3 → u ≠ v →
      ofBytes (before ++ u ++ after) ≠ ofBytes (before ++ v ++ after)) ∧
    ∀ key other after : List UInt8,
      ofBytes (key ++ after) = ofBytes (other ++ after) ↔ ofBytes key = ofBytes other := by
  refine ⟨fun before u v after hlen hshort hne heq => ?_, fun _ _ _ => ofBytes_append_inj⟩
  exact hne (eq_of_ofBytes_append_eq hlen hshort (ofBytes_append_inj.1 heq))

/-- Two addresses that differ in the last three digits, and then in a port. -/
theorem ofBytes_separates_addresses :
    (utf8 "017").length = (utf8 "238").length ∧ (utf8 "017").length ≤ 3 ∧
      utf8 "017" ≠ utf8 "238" ∧
      ofBytes (utf8 "10.0.0." ++ utf8 "017" ++ utf8 ":80") ≠
        ofBytes (utf8 "10.0.0." ++ utf8 "238" ++ utf8 ":80") := by
  have hlen : (utf8 "017").length = (utf8 "238").length := by decide
  have hshort : (utf8 "017").length ≤ 3 := by decide
  have hne : utf8 "017" ≠ utf8 "238" := by decide
  exact ⟨hlen, hshort, hne, ofBytes_separates.1 _ _ _ _ hlen hshort hne⟩

end RateGate.Identifier
