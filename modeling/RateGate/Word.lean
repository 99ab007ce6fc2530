/-!
# Saturating words

Counts, identifiers, limits and times in milliseconds are 64-bit words. Arithmetic on them either
stops at the ends of the range or says that it left it; it never wraps silently.

Each operation has one lemma that gives its value as a natural number, and later proofs use those
lemmas alone: `toNat_clamp`, `toNat_satAdd`, `toNat_satMul`, `toNat_satSub`, `sub?_eq_some_iff`.
-/

namespace RateGate

/-- A 64-bit unsigned number. -/
abbrev Word := UInt64

namespace Word

/-- The word nearest to `n`. -/
def clamp (n : Nat) : Word := UInt64.ofNatClamp n

/-- Addition that stops at the largest word. -/
def satAdd (a b : Word) : Word := clamp (a.toNat + b.toNat)

/-- Multiplication that stops at the largest word. -/
def satMul (a b : Word) : Word := clamp (a.toNat * b.toNat)

/-- Subtraction that stops at zero. -/
def satSub (a b : Word) : Word := clamp (a.toNat - b.toNat)

/-- The exact difference, if it is not negative. -/
def sub? (a b : Word) : Option Word := if b ≤ a then some (a - b) else none

/-- The largest signed 64-bit number, one less than the 63rd power of two. -/
abbrev signedTop : Int := 9223372036854775807

/-- The word as a signed 64-bit number; words above the signed range count as its end. -/
def signed (a : Word) : Int := min a.toNat signedTop

/-- Subtraction of signed 64-bit numbers that stops at the ends of their range. -/
def signedSatSub (a b : Int) : Int := max (-signedTop - 1) (min (a - b) signedTop)

/-! ## Values as natural numbers

The largest word is 18446744073709551615, one less than the 64th power of two. -/

@[simp] theorem toNat_clamp (n : Nat) : (clamp n).toNat = min n (18446744073709551615) := by
  have hsize : UInt64.size = 18446744073709551616 := rfl
  unfold clamp
  rcases Nat.lt_or_ge n UInt64.size with h | h
  · rw [UInt64.toNat_ofNatClamp_of_lt h]
    omega
  · rw [UInt64.toNat_ofNatClamp_of_le h]
    omega

@[simp] theorem clamp_toNat (a : Word) : clamp a.toNat = a := by
  have := a.toNat_lt
  exact UInt64.toNat_inj.1 (by rw [toNat_clamp]; omega)

@[simp] theorem toNat_satAdd (a b : Word) :
    (satAdd a b).toNat = min (a.toNat + b.toNat) (18446744073709551615) :=
  toNat_clamp _

@[simp] theorem toNat_satMul (a b : Word) :
    (satMul a b).toNat = min (a.toNat * b.toNat) (18446744073709551615) :=
  toNat_clamp _

@[simp] theorem toNat_satSub (a b : Word) : (satSub a b).toNat = a.toNat - b.toNat := by
  have := a.toNat_lt
  rw [satSub, toNat_clamp]
  omega

theorem sub?_eq_some_iff {a b c : Word} : sub? a b = some c ↔ c.toNat + b.toNat = a.toNat := by
  unfold sub?
  split
  · rename_i h
    have hle : b.toNat ≤ a.toNat := UInt64.le_iff_toNat_le.1 h
    have hsub := UInt64.toNat_sub_of_le a b h
    constructor
    · rintro ⟨⟩
      omega
    · intro hc
      exact congrArg some (UInt64.toNat_inj.1 (by omega))
  · rename_i h
    rw [UInt64.le_iff_toNat_le] at h
    constructor
    · rintro ⟨⟩
    · intro hc
      omega

theorem sub?_eq_none_iff {a b : Word} : sub? a b = none ↔ a.toNat < b.toNat := by
  unfold sub?
  split <;> rename_i h <;> simp [UInt64.le_iff_toNat_le] at h ⊢ <;> omega

end Word

end RateGate
