import RateGate.Quota

/-!
# What a response says of a quota

* `writes_stamp`: stamping fields with a quota leaves one value under each of its four names, and
  all other names as they were.
* `remaining_make`: what remains is the exact difference of limit and rate, each taken as a signed
  number. The difference of two such numbers never leaves the signed range.
* `remaining_make_neg_iff`: so it is negative exactly where the limit is exceeded, as long as the
  limit is below the largest signed number. From there on it is never negative.
-/

namespace RateGate.Quota

/-- The names of the fields that say a quota. -/
def names : List FieldName := [.rateLimit, .ratePolicy, .rateRemaining, .rateReset]

/-- The fields `after` say the quota, and for the rest what the fields `before` say. -/
structure Writes (q : Quota) (before after : Fields) : Prop where
  limit : after.values .rateLimit = [.ofNat q.limit.toNat]
  policy : after.values .ratePolicy = [.ofPlain q.policy q.isPlain_policy]
  remaining : after.values .rateRemaining = [.ofInt q.remaining]
  reset : after.values .rateReset = [.ofNat q.resetSecs.toNat]
  other : ∀ name ∉ names, after.values name = before.values name

theorem values_stamp (q : Quota) (fields : Fields) (name : FieldName) :
    (q.stamp fields).values name =
      if FieldName.rateReset = name then [.ofNat q.resetSecs.toNat]
      else if FieldName.rateRemaining = name then [.ofInt q.remaining]
      else if FieldName.ratePolicy = name then [.ofPlain q.policy q.isPlain_policy]
      else if FieldName.rateLimit = name then [.ofNat q.limit.toNat]
      else fields.values name := by
  rw [stamp, Fields.values_insert, Fields.values_insert, Fields.values_insert,
    Fields.values_insert]

theorem writes_stamp (q : Quota) (fields : Fields) : q.Writes fields (q.stamp fields) where
  limit := by
    rw [values_stamp, if_neg (by decide), if_neg (by decide), if_neg (by decide), if_pos rfl]
  policy := by rw [values_stamp, if_neg (by decide), if_neg (by decide), if_pos rfl]
  remaining := by rw [values_stamp, if_neg (by decide), if_pos rfl]
  reset := by rw [values_stamp, if_pos rfl]
  other := by
    intro name hname
    simp only [names, List.mem_cons, List.not_mem_nil, or_false, not_or] at hname
    obtain ⟨hlimit, hpolicy, hremaining, hreset⟩ := hname
    rw [values_stamp, if_neg (Ne.symm hreset), if_neg (Ne.symm hremaining),
      if_neg (Ne.symm hpolicy), if_neg (Ne.symm hlimit)]

variable (limit rate : Word) (window : Span) (time : Instant)

/-- What remains is an exact difference: the subtraction never stops at an end of the range. -/
theorem remaining_make :
    (make limit rate window time).remaining = Word.signed limit - Word.signed rate := by
  simp only [make, Word.signedSatSub, Word.signed, Word.signedTop]
  omega

theorem remaining_make_neg_iff :
    (make limit rate window time).remaining < 0 ↔
      limit < rate ∧ limit.toNat < 9223372036854775807 := by
  rw [remaining_make, UInt64.lt_iff_toNat_lt]
  simp only [Word.signed, Word.signedTop]
  omega

example : (make 100 101 (.ofSecs 60) .epoch).remaining = -1 := by decide

end RateGate.Quota
