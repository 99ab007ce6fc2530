import Mathlib.Tactic.SplitIfs
import RateGate.Proofs.Bytes
import RateGate.Proofs.Quota
import Std.Data.String.ToInt

/-!
# Reading a quota back

A quota is written into four header fields as decimal text. Whoever receives them reads numbers.

**Theorem (`stamp_reads_back`).** Whatever the fields held before, stamping them leaves exactly one
value under each of the four names, and from these four values the whole quota can be read back: the
limit, the seconds of the window, what remains, and the seconds to its end. The values of all other
names stay as they are, in their order. So the last quota to be stamped is the one that is told, and
it does not matter whether `Retry-After` is set before or after.

The text of a policy is always a legal value, so none of the four fields is ever left out.
-/

namespace RateGate

/-! ## Text and numbers of a value -/

namespace FieldValue

/-- The natural number that a value spells in decimal. -/
def nat? (v : FieldValue) : Option Nat := v.plainText?.bind String.toNat?

/-- The integer that a value spells in decimal. -/
def int? (v : FieldValue) : Option Int := v.plainText?.bind String.toInt?

/-- The two numbers of a policy text, before `;w=` and after it. -/
def splitPolicy? (text : String) : Option (Nat × Nat) :=
  match text.toList.dropWhile (· ≠ ';') with
  | ';' :: 'w' :: '=' :: after => do
    let before := text.toList.takeWhile (· ≠ ';')
    return (← (String.ofList before).toNat?, ← (String.ofList after).toNat?)
  | _ => none

/-- The limit and the seconds that a value spells as a policy. -/
def policy? (v : FieldValue) : Option (Nat × Nat) := v.plainText?.bind splitPolicy?

theorem plainText?_ofPlain (s : String) (h : isPlain s = true) :
    (ofPlain s h).plainText? = some s := by
  have hvisible : (utf8 s).all isVisible = true :=
    List.all_eq_true.2 fun _ hb => isVisible_of_mem_utf8 h hb
  rw [plainText?, ofPlain, if_pos hvisible, map_utf8_of_isPlain h, String.ofList_toList]

theorem nat?_ofNat (n : Nat) : (ofNat n).nat? = some n := by
  rw [nat?, ofNat, plainText?_ofPlain]
  exact Nat.toNat?_repr n

theorem int?_ofInt (n : Int) : (ofInt n).int? = some n := by
  rw [int?, ofInt, plainText?_ofPlain]
  exact Int.toInt?_repr n

/-- Digits come before the semicolon, and what follows `;w=` is all digits again. -/
theorem splitPolicy?_append (limit secs : Nat) :
    splitPolicy? (toString limit ++ ";w=" ++ toString secs) = some (limit, secs) := by
  have hdigits : ∀ c ∈ (toString limit).toList, decide (c ≠ ';') = true := by
    intro c hc
    rw [Nat.toString_eq_repr, Nat.toList_repr] at hc
    have hdigit := Nat.isDigit_of_mem_toDigits (by decide) (by decide) hc
    rw [decide_eq_true_eq]
    rintro rfl
    exact absurd hdigit (by decide)
  have htext : (toString limit ++ ";w=" ++ toString secs).toList =
      (toString limit).toList ++ ';' :: 'w' :: '=' :: (toString secs).toList := by
    rw [String.toList_append, String.toList_append, List.append_assoc]
    rfl
  have hbefore : (toString limit ++ ";w=" ++ toString secs).toList.takeWhile (· ≠ ';') =
      (toString limit).toList := by
    rw [htext, List.takeWhile_append_of_pos hdigits]
    exact List.append_nil _
  have hafter : (toString limit ++ ";w=" ++ toString secs).toList.dropWhile (· ≠ ';') =
      ';' :: 'w' :: '=' :: (toString secs).toList := by
    rw [htext, List.dropWhile_append_of_pos hdigits]
    rfl
  rw [splitPolicy?, hafter, hbefore]
  simp only [String.ofList_toList, Nat.toString_eq_repr, Nat.toNat?_repr]
  rfl

theorem ofBytes?_utf8 (s : String) (h : isPlain s = true) :
    ofBytes? (utf8 s) = some (ofPlain s h) :=
  dif_pos (ofPlain s h).legal

end FieldValue

namespace Quota

/-- Fields from which a quota can be read: each of its four names has exactly one value, and the
values spell its numbers. The text of the policy is a legal value, and the value is that text. -/
structure ReadsAs (q : Quota) (fields : Fields) : Prop where
  limit : ∃ v, fields.values .rateLimit = [v] ∧ v.nat? = some q.limit.toNat
  policy : ∃ v, fields.values .ratePolicy = [v] ∧ FieldValue.ofBytes? (utf8 q.policy) = some v ∧
    v.policy? = some (q.limit.toNat, q.windowSecs.toNat)
  remaining : ∃ v, fields.values .rateRemaining = [v] ∧ v.int? = some q.remaining
  reset : ∃ v, fields.values .rateReset = [v] ∧ v.nat? = some q.resetSecs.toNat

theorem Writes.readsAs {q : Quota} {before after : Fields} (h : q.Writes before after) :
    q.ReadsAs after where
  limit := ⟨_, h.limit, FieldValue.nat?_ofNat _⟩
  policy := by
    refine ⟨_, h.policy, FieldValue.ofBytes?_utf8 _ _, ?_⟩
    rw [FieldValue.policy?, FieldValue.plainText?_ofPlain]
    exact FieldValue.splitPolicy?_append _ _
  remaining := ⟨_, h.remaining, FieldValue.int?_ofInt _⟩
  reset := ⟨_, h.reset, FieldValue.nat?_ofNat _⟩

/-! ## The order of stamps -/

/-- Of two quotas only the one stamped last is told. -/
theorem values_stamp_stamp (q earlier : Quota) (fields : Fields) :
    (q.stamp (earlier.stamp fields)).values = (q.stamp fields).values := by
  funext name
  simp only [values_stamp]
  split_ifs <;> rfl

theorem values_setRetryAfter_stamp (q : Quota) (fields : Fields) (window : Span) :
    ((q.stamp fields).setRetryAfter window).values =
      (q.stamp (fields.setRetryAfter window)).values := by
  funext name
  rw [Fields.setRetryAfter, Fields.values_insert, values_stamp, values_stamp, Fields.setRetryAfter,
    Fields.values_insert]
  by_cases h : FieldName.retryAfter = name
  · subst h
    rw [if_pos rfl, if_pos rfl, if_neg (by decide), if_neg (by decide), if_neg (by decide),
      if_neg (by decide)]
  · rw [if_neg h, if_neg h]

/-- **Reading a quota back.** For any fields and any quota. After the stamp each of the four names has
exactly one value, and the values spell the numbers of the quota; every other name has the values it
had. A stamp before this one does not show, and `Retry-After` may be set before or after. -/
theorem stamp_reads_back (q : Quota) (fields : Fields) :
    q.ReadsAs (q.stamp fields) ∧
    (∀ name, name ∉ names → (q.stamp fields).values name = fields.values name) ∧
    (∀ earlier : Quota, (q.stamp (earlier.stamp fields)).values = (q.stamp fields).values) ∧
    ∀ window : Span, ((q.stamp fields).setRetryAfter window).values =
      (q.stamp (fields.setRetryAfter window)).values :=
  ⟨(q.writes_stamp fields).readsAs, (q.writes_stamp fields).other,
    fun earlier => q.values_stamp_stamp earlier fields,
    fun window => q.values_setRetryAfter_stamp fields window⟩

/-- Fields with two values under one name of a quota, and two under another name. -/
def staleFields : Fields :=
  (((Fields.empty.append .rateLimit (.ofPlain "stale" (by decide))).append .contentType
    (.ofNat 1)).append .rateLimit (.ofNat 7)).append .contentType (.ofNat 2)

/-- A quota at ten seconds of a window of thirty, after twelve requests where ten may pass. -/
def exceededQuota : Quota := make 10 12 (.ofSecs 30) ⟨10, noNanos⟩

theorem stamp_reads_back_exceededQuota :
    (staleFields.values .rateLimit).length = 2 ∧ exceededQuota.remaining = -2 ∧
      FieldName.contentType ∉ names ∧
      (exceededQuota.stamp staleFields).values .contentType = [.ofNat 1, .ofNat 2] ∧
      ∃ v, (exceededQuota.stamp staleFields).values .rateRemaining = [v] ∧ v.int? = some (-2) := by
  have hname : FieldName.contentType ∉ names := by decide
  have hback := stamp_reads_back exceededQuota staleFields
  exact ⟨by decide, by decide, hname, hback.2.1 .contentType hname, hback.1.remaining⟩

end Quota

end RateGate
