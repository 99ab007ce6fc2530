import RateGate.Proofs.Meter.Decay
import RateGate.Proofs.Meter.Justified

/-!
# First requests

A limit of zero stands for the standard limit. So whatever preset a gate comes from, and whatever is
set on it or on a copy of it, its limit is at least one, and no gate refuses everything.

**Theorem (`first_request_passes`).** Through a gate that was set up in any way and counts in a
meter, a request passes if its identifier shows the rate zero at the time of the request. It is told
that all of the limit but one remains.

An identifier shows the rate zero if the meter has no tally of it, be it that none was ever made or
that the sweep of this very call drops it, and if every event of it was counted two windows ago or
earlier, also while the meter still has the tally. The latter needs no account of which event went
where: a tally does not start after the latest of its events (`Tally.Justified`).
-/

namespace RateGate

/-! ## Identifiers that show no rate -/

namespace Meter

variable {m : Meter} {id : Identifier} {time : Instant}

theorem rate_read_of_seen_none (h : m.seen time.epochMillis id = none) :
    (m.reply (.read id time)).rate = 0 := by
  rw [reply, rate_read, h, Tally.rateOf_none]

theorem start_add_le_of_justified {width now : Word} {es : List Nat} {t : Tally}
    (ht : t.Justified width es)
    (hes : ∀ r ∈ es, r / width.toNat + 2 ≤ now.toNat / width.toNat) :
    t.start.toNat + 2 * width.toNat ≤ now.toNat := by
  obtain ⟨r, hr, hle⟩ := ht.start_le
  calc t.start.toNat + 2 * width.toNat
      = (t.start.toNat / width.toNat + 2) * width.toNat := by
        rw [Nat.add_mul, Nat.div_mul_cancel ht.dvd_start]
    _ ≤ (r / width.toNat + 2) * width.toNat :=
        Nat.mul_le_mul_right _ (Nat.add_le_add_right (Nat.div_le_div_right hle) 2)
    _ ≤ now.toNat / width.toNat * width.toNat := Nat.mul_le_mul_right _ (hes r hr)
    _ ≤ now.toNat := Nat.div_mul_le_self _ _

/-- An identifier whose events all lie two windows back shows the rate zero. -/
theorem rate_read_run_eq_zero {c : Config} {calls : List Call}
    (h : ∀ r ∈ events id calls, r / c.width.toNat + 2 ≤ time.epochMillis.toNat / c.width.toNat) :
    (((fresh c).run calls).reply (.read id time)).rate = 0 := by
  apply rate_read_eq_zero
  intro t ht
  have hjustified := justified_run c calls id t ht
  rw [config_run] at hjustified ⊢
  exact start_add_le_of_justified hjustified h

end Meter

/-! ## What the first request is told -/

/-- The first request of a bucket leaves all of the limit but one, counted as a signed number. -/
theorem Quota.remaining_make_one (limit : Word) (window : Span) (time : Instant) :
    (make limit 1 window time).remaining = min ((limit.toNat : Int) - 1) 9223372036854775806 := by
  have hone : (1 : Word).toNat = 1 := rfl
  rw [remaining_make]
  simp only [Word.signed, Word.signedTop, hone]
  omega

namespace Flight

variable {κ δ ε : Type} [Timepiece κ] [Downstream δ ε]

/-- A first request gets the answer of the service behind the gate, and is told what remains. -/
theorem remaining_of_first {f : Flight} {site : Site κ Meter δ} {id : Identifier}
    {response : Response}
    (hgiven : (Verdict.served id 1 response : Verdict ε).Given f site) :
    ∃ r, (f.settle site).result = .ok r ∧ r.status = response.status ∧ r.body = response.body ∧
      r.fields.values .rateRemaining =
        [.ofInt (min ((f.policy.limit.toNat : Int) - 1) 9223372036854775806)] := by
  obtain ⟨-, -, r, hresult, hcarries⟩ := hgiven.explains
  refine ⟨r, hresult, hcarries.status, hcarries.body, ?_⟩
  rw [hcarries.fields.remaining, quota, Quota.remaining_make_one]

/-- **First requests pass.** For any preset and any settings, the limit of the gate is at least one.
Take any meter, whatever it has been through. If the identifier of a request shows the rate zero at
the time of the request, the request is counted as the first of its bucket and forwarded; and if the
service behind the gate has a response, it goes back with the number of remaining requests, which is
one less than the limit. The rate is zero where the meter finds no tally of the identifier, once it
has swept, and after any history in which the events of the identifier all lie two windows back, if
there are any. -/
theorem first_request_passes (preset : Gate.Preset) (own : Nat) (settings : List Gate.Setting) :
    1 ≤ ((preset.gate own).configure settings).policy.limit.toNat ∧
    (∀ (f : Flight) (site : Site κ Meter δ) (id : Identifier),
      f.policy = ((preset.gate own).configure settings).policy →
      f.policy.extractor f.request = .ok id →
      (site.backend.reply (.read id site.now)).rate = 0 →
      (Verdict.passed id 1 (site.serve f.request)).Given f site ∧
      (Verdict.passed id 1 (site.serve f.request)).Explains f site (f.settle site) ∧
      ∀ response, site.serve f.request = .ok response →
        ∃ r, (f.settle site).result = .ok r ∧ r.status = response.status ∧
          r.body = response.body ∧ r.fields.values .rateRemaining =
            [.ofInt (min ((f.policy.limit.toNat : Int) - 1) 9223372036854775806)]) ∧
    (∀ (m : Meter) (id : Identifier) (time : Instant), m.seen time.epochMillis id = none →
      (m.reply (.read id time)).rate = 0) ∧
    ∀ (c : Meter.Config) (calls : List Call) (id : Identifier) (time : Instant),
      (∀ r ∈ events id calls,
        r / c.width.toNat + 2 ≤ time.epochMillis.toNat / c.width.toNat) →
      (((Meter.fresh c).run calls).reply (.read id time)).rate = 0 := by
  have hlimit : ((preset.gate own).configure settings).policy.limit ≠ 0 :=
    Gate.limit_configure_ne_zero (preset.limit_gate_ne_zero own) settings
  refine ⟨?_, fun f site id hpolicy hid hrate => ?_, fun m id time => Meter.rate_read_of_seen_none,
    fun c calls id time => Meter.rate_read_run_eq_zero⟩
  · exact Nat.pos_of_ne_zero fun hzero => hlimit (UInt64.toNat_inj.1 hzero)
  · have hgiven := given_of_rate_eq_zero hid (hpolicy ▸ hlimit) hrate
    refine ⟨hgiven, hgiven.explains, fun response hresponse => ?_⟩
    rw [hresponse] at hgiven
    exact remaining_of_first hgiven

/-- Calls in seconds, after which bucket 7 has events of two windows. -/
def countedCalls : List Call :=
  [.count 7 ⟨70, noNanos⟩, .count 7 ⟨130, noNanos⟩, .count 7 ⟨131, noNanos⟩]

/-- A site two windows later, whose meter still has the tally. -/
def staleSite : Site Instant Meter Canned.Client :=
  ⟨⟨240, noNanos⟩, (Meter.fresh .standard).run countedCalls,
    ⟨⟨⟨.ok, .empty, none⟩, none, .ready, 0⟩, true, false⟩⟩

/-- Settings of a gate for bucket 7: the limit zero, and then the largest limit there is. -/
def topSettings : List Gate.Setting :=
  [.extractor (.constant 7), .limit 0, .limit 18446744073709551615]

def topRequest : Flight :=
  ⟨((Gate.Preset.standard.gate 0).configure topSettings).policy, ⟨.empty, ""⟩⟩

theorem first_request_passes_topRequest :
    staleSite.backend.register.get? 7 = some ⟨2, 1, 120000⟩ ∧
      (∀ r ∈ events 7 countedCalls, r / 60000 + 2 ≤ 240000 / 60000) ∧
      (staleSite.backend.reply (.read 7 staleSite.now)).rate = 0 ∧
      topRequest.policy.extractor topRequest.request = .ok 7 ∧
      staleSite.serve topRequest.request = .ok ⟨.ok, .empty, ""⟩ ∧
      (∃ r, (topRequest.settle staleSite).result = .ok r ∧
        r.fields.values .rateRemaining = [.ofInt 9223372036854775806]) ∧
      staleSite.backend.seen 400000 7 = none ∧
      (staleSite.backend.reply (.read 7 ⟨400, noNanos⟩)).rate = 0 := by
  obtain ⟨-, hpasses, hseen, hback⟩ :=
    @first_request_passes Instant Canned.Client String _ _ .standard 0 topSettings
  have hevents : ∀ r ∈ events 7 countedCalls, r / 60000 + 2 ≤ 240000 / 60000 := by decide
  have hrate := hback .standard countedCalls 7 ⟨240, noNanos⟩ hevents
  have hnone : staleSite.backend.seen 400000 7 = none := by decide +kernel
  obtain ⟨r, hresult, -, -, hremaining⟩ := (hpasses topRequest staleSite 7 rfl rfl hrate).2.2 _ rfl
  exact ⟨by decide +kernel, hevents, hrate, rfl, rfl, ⟨r, hresult, hremaining⟩, hnone,
    hseen _ 7 ⟨400, noNanos⟩ hnone⟩

end Flight

end RateGate
