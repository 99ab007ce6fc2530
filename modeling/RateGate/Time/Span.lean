import RateGate.Word

/-!
# Spans of time

A span is a length of time with nanosecond precision. Windows and sweep intervals are given as
spans and used in whole milliseconds.

The written form takes the largest unit of which the span holds at least one, and then only as
many decimals as it needs: `1.5s`, `999.999µs`, `0ns`.
-/

namespace RateGate

/-- A part of a second in nanoseconds. -/
abbrev Nanos := Fin 1000000000

/-- No part of a second. -/
def noNanos : Nanos := 0

/-- A length of time. -/
structure Span where
  secs : Word
  nanos : Nanos
  deriving DecidableEq

namespace Span

/-- The span with no part of a second. -/
def ofSecs (secs : Word) : Span := ⟨secs, noNanos⟩

/-- The whole span in nanoseconds. -/
def ticks (s : Span) : Nat := 1000000000 * s.secs.toNat + s.nanos

/-- Whole milliseconds, or the largest word for a span too long for it. -/
def millis (s : Span) : Word := Word.clamp (s.ticks / 1000000)

/-- The span of `n` milliseconds. -/
def ofMillis (n : Word) : Span :=
  ⟨n / 1000, ⟨1000000 * (n.toNat % 1000), by omega⟩⟩

theorem ticks_ofMillis (n : Word) : (ofMillis n).ticks = 1000000 * n.toNat := by
  simp only [ofMillis, ticks, UInt64.toNat_div, UInt64.reduceToNat]
  omega

@[simp] theorem millis_ofMillis (n : Word) : (ofMillis n).millis = n := by
  rw [millis, ticks_ofMillis, Nat.mul_div_cancel_left _ (by decide), Word.clamp_toNat]

/-! ## Written form -/

/-- A unit of time: its length in nanoseconds, how many decimals it has, its symbol. -/
structure Unit where
  ticks : Nat
  decimals : Nat
  symbol : String

/-- The units above the nanosecond, the longest first. -/
def units : List Unit :=
  [⟨1000000000, 9, "s"⟩, ⟨1000000, 6, "ms"⟩, ⟨1000, 3, "µs"⟩]

/-- The decimals of `part / 10 ^ places` without trailing zeros. -/
def decimals (places part : Nat) : List Char :=
  let digits := Nat.toDigits 10 part
  let padded := List.replicate (places - digits.length) '0' ++ digits
  (padded.reverse.dropWhile (· == '0')).reverse

/-- A point and the decimals, or nothing where there are none. -/
def fraction (places part : Nat) : String :=
  match decimals places part with
  | [] => ""
  | digits => "." ++ String.ofList digits

/-- The span in its largest unit; a span below a microsecond is in nanoseconds. -/
def text (s : Span) : String :=
  match units.find? (fun u => decide (u.ticks ≤ s.ticks)) with
  | some u =>
    toString (s.ticks / u.ticks) ++ fraction u.decimals (s.ticks % u.ticks) ++ u.symbol
  | none => toString s.ticks ++ "ns"

end Span

end RateGate
