import RateGate.Extractor

/-!
# Policies

A policy says how requests are limited: up to which rate they pass, how they are told apart, and
what a request beyond the limit is answered. A limit of zero stands for the standard limit, so no
policy that was set up through `withLimit` refuses everything.
-/

namespace RateGate

structure Policy where
  limit : Word
  extractor : Extractor
  /-- The response to a request beyond the limit. -/
  exceeded : Request → Response

namespace Policy

/-- The limit of a policy that does not set one. -/
def standardLimit : Word := 100

/-- A hundred requests per window, not told apart, and a plain 429 beyond. -/
def standard : Policy where
  limit := standardLimit
  extractor := .global
  exceeded := fun _ => .ofStatus .tooManyRequests

/-- Limit the rate to `limit`, or to the standard limit if `limit` is zero. -/
def withLimit (p : Policy) (limit : Word) : Policy :=
  { p with limit := if limit = 0 then standardLimit else limit }

theorem withLimit_limit_ne_zero (p : Policy) (limit : Word) : (p.withLimit limit).limit ≠ 0 := by
  have : standardLimit ≠ 0 := by decide
  simp only [withLimit]
  split <;> assumption

end Policy

end RateGate
