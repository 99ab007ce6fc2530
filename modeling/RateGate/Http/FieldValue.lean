import RateGate.Bytes

/-!
# Values of header fields

A value is a list of bytes without control characters; only the tab is allowed among them. Bytes
above ASCII are legal, so a value need not be text. Numbers and plain text are always legal.
-/

namespace RateGate

/-- A byte that a field value may contain. -/
def isValueByte (b : UInt8) : Bool := b == tab || (32 ≤ b && b != 127)

/-- The value of a header field. -/
structure FieldValue where
  bytes : List UInt8
  legal : bytes.all isValueByte = true
  deriving DecidableEq

namespace FieldValue

/-- The value with these bytes, if they are legal. -/
def ofBytes? (bytes : List UInt8) : Option FieldValue :=
  if h : bytes.all isValueByte = true then some ⟨bytes, h⟩ else none

theorem isValueByte_of_isVisible {b : UInt8} (h : isVisible b = true) : isValueByte b = true := by
  simp only [isVisible, Bool.and_eq_true, decide_eq_true_eq, UInt8.le_iff_toNat_le,
    UInt8.reduceToNat] at h
  have hne : b ≠ 127 := by
    rintro rfl
    exact absurd h.2 (by decide)
  simp [isValueByte, hne, UInt8.le_iff_toNat_le, h.1]

/-- The value that spells a plain text. -/
def ofPlain (s : String) (h : isPlain s = true) : FieldValue :=
  ⟨utf8 s, List.all_eq_true.2 fun _ hb => isValueByte_of_isVisible (isVisible_of_mem_utf8 h hb)⟩

/-- The value that spells a natural number in decimal. -/
def ofNat (n : Nat) : FieldValue := ofPlain (toString n) (isPlain_nat n)

/-- The value that spells an integer in decimal. -/
def ofInt (n : Int) : FieldValue := ofPlain (toString n) (isPlain_int n)

/-- Whether the value is text: visible bytes and tabs. -/
def isText (v : FieldValue) : Bool := v.bytes.all fun b => isVisible b || b == tab

/-- The text of a value made of visible bytes alone. -/
def plainText? (v : FieldValue) : Option String :=
  if v.bytes.all isVisible then some (String.ofList (v.bytes.map fun b => Char.ofNat b.toNat))
  else none

end FieldValue

end RateGate
